import LinkedScopes.Proofs.Grammar.Phrase

/-! The grammar is unambiguous. Two phrases of a category that start the same input are one
phrase, as long as what follows each of them ends it. -/
namespace LinkedScopes.Phrase

/-- Only this phrase of its category starts where it does and ends properly. -/
def Unique {c : Category} (p : Phrase c) : Prop :=
  ∀ (q : Phrase c) (more more' : List Lexeme), c.Ends more → c.Ends more' →
    p.lexemes ++ more = q.lexemes ++ more' → p = q ∧ more = more'

theorem ne_cons {c : Category} (p : Phrase c) {lexeme : Lexeme} (apart : lexeme.kind ∉ c.starts)
    (solid : ∀ what, c ≠ .many what) {more others : List Lexeme} :
    p.lexemes ++ more ≠ lexeme :: others := by
  intro same
  obtain ⟨first, rest, spelled, start⟩ := p.exists_cons solid
  rw [spelled] at same
  obtain ⟨rfl, -⟩ := List.cons_eq_cons.mp same
  exact apart start

/-- Phrases of categories that start differently do not start the same input. -/
theorem append_ne {c d : Category} (p : Phrase c) (q : Phrase d)
    (apart : ∀ kind ∈ d.starts, kind ∉ c.starts) (solid : ∀ what, c ≠ .many what)
    (solid' : ∀ what, d ≠ .many what) {more more' : List Lexeme} :
    p.lexemes ++ more ≠ q.lexemes ++ more' := by
  obtain ⟨first, rest, spelled, start⟩ := q.exists_cons solid'
  rw [spelled]
  exact p.ne_cons (apart _ start) solid

/-- The only production of a category passes uniqueness on, if it adds nothing. -/
theorem Unique.wrap {c d : Category} {p : Phrase c} (ih : p.Unique) (wrap : Phrase c → Phrase d)
    (only : ∀ q, ∃ inner, q = wrap inner) (same : ∀ inner, (wrap inner).lexemes = inner.lexemes)
    (ends : ∀ more, d.Ends more → c.Ends more) : (wrap p).Unique := by
  intro q more more' ended ended' equal
  obtain ⟨inner, rfl⟩ := only q
  rw [same, same] at equal
  obtain ⟨rfl, rest⟩ := ih inner _ _ (ends _ ended) (ends _ ended') equal
  exact ⟨rfl, rest⟩

section Expressions

variable {rank : Precedence}

theorem unique_number (text : String) : (number text).Unique := by
  intro q more more' _ _ same
  cases q <;> simp [lexemes, Lexeme.bare] at same
  obtain ⟨rfl, rfl⟩ := same
  exact ⟨rfl, rfl⟩

theorem unique_var (name : String) : (var name).Unique := by
  intro q more more' _ _ same
  cases q <;> simp [lexemes, Lexeme.bare] at same
  obtain ⟨rfl, rfl⟩ := same
  exact ⟨rfl, rfl⟩

theorem unique_head (word : String) (conditional : isConditionalWord word = true) :
    (head word conditional).Unique := by
  intro q more more' _ _ same
  cases q with
  | head word' conditional' =>
    simp [lexemes] at same
    obtain ⟨rfl, rfl⟩ := same
    exact ⟨rfl, rfl⟩
  | call word' operation argument =>
    simp [lexemes, Lexeme.bare] at same
    rw [same.1, operation] at conditional
    cases conditional
  | _ => simp [lexemes, Lexeme.bare] at same

theorem unique_call (word : String) (operation : isConditionalWord word = false)
    {argument : Phrase .expression} (ih : argument.Unique) :
    (call word operation argument).Unique := by
  intro q more more' _ _ same
  cases q with
  | head word' conditional =>
    simp [lexemes, Lexeme.bare] at same
    rw [same.1, conditional] at operation
    cases operation
  | call word' operation' argument' =>
    simp only [lexemes, List.cons_append, List.append_assoc, List.cons.injEq, Lexeme.mk.injEq,
      true_and, List.nil_append] at same
    obtain ⟨rfl, same⟩ := same
    obtain ⟨rfl, tail⟩ := ih argument' _ _ Category.ends_closing Category.ends_closing same
    exact ⟨rfl, (List.cons_eq_cons.mp tail).2⟩
  | _ => simp [lexemes, Lexeme.bare] at same

theorem unique_group {inner : Phrase .expression} (ih : inner.Unique) :
    (group inner).Unique := by
  intro q more more' _ _ same
  cases q with
  | group inner' =>
    simp only [lexemes, List.cons_append, List.append_assoc, List.cons.injEq, true_and,
      List.nil_append] at same
    obtain ⟨rfl, tail⟩ := ih inner' _ _ Category.ends_closing Category.ends_closing same
    exact ⟨rfl, (List.cons_eq_cons.mp tail).2⟩
  | _ => simp [lexemes, Lexeme.bare] at same

theorem unique_joined {first : Phrase (.operand rank)} {joins : Phrase (.many (.join rank))}
    (ih : first.Unique) (ihs : joins.Unique) : (joined first joins).Unique := by
  intro q more more' ends ends' same
  cases q with
  | joined first' joins' =>
    simp only [lexemes, List.append_assoc] at same
    obtain ⟨rfl, tail⟩ := ih first' _ _ (Category.ends_operand joins ends)
      (Category.ends_operand joins' ends') same
    obtain ⟨rfl, rest⟩ := ihs joins' _ _ ends ends' tail
    exact ⟨rfl, rest⟩

theorem unique_join (op : Operator) (member : op ∈ rank.operators)
    {right : Phrase (.operand rank)} (ih : right.Unique) : (join op member right).Unique := by
  intro q more more' ends ends' same
  cases q with
  | join op' member' right' =>
    simp only [lexemes, List.cons_append, List.cons.injEq, Lexeme.operator_inj] at same
    obtain ⟨rfl, same⟩ := same
    obtain ⟨rfl, rest⟩ := ih right' _ _ ends ends' same
    exact ⟨rfl, rest⟩

end Expressions

theorem unique_assignment (target : String) {value : Phrase .expression} (ih : value.Unique) :
    (assignment target value).Unique := by
  intro q more more' ends ends' same
  cases q with
  | assignment target' value' =>
    simp only [lexemes, List.cons_append, List.cons.injEq, Lexeme.mk.injEq, true_and] at same
    obtain ⟨rfl, same⟩ := same
    obtain ⟨rfl, rest⟩ := ih value' _ _ ends ends' same
    exact ⟨rfl, rest⟩

theorem unique_conditional (word : String) (conditional : isConditionalWord word = true)
    {condition : Phrase .expression} {body : Phrase .body} (ih : condition.Unique)
    (ihs : body.Unique) : (Phrase.conditional word conditional condition body).Unique := by
  intro q more more' _ _ same
  cases q with
  | conditional word' conditional' condition' body' =>
    simp only [lexemes, List.cons_append, List.append_assoc, List.cons.injEq, Lexeme.mk.injEq,
      true_and] at same
    obtain ⟨rfl, same⟩ := same
    obtain ⟨rfl, tail⟩ := ih condition' _ _ Category.ends_closing Category.ends_closing same
    obtain ⟨rfl, rest⟩ := ihs body' _ _ trivial trivial (List.cons_eq_cons.mp tail).2
    exact ⟨rfl, rest⟩

section Rows

variable {what : Repeated}

theorem ends_ne (first : Phrase (.one what)) {more more' : List Lexeme}
    (ends : (Category.many what).Ends more) : more ≠ first.lexemes ++ more' := by
  intro same
  cases what with
  | join rank =>
    cases first with
    | join op member right =>
      apply ends op (Precedence.mem_binding_iff.mpr (.inl member))
      rw [same]
      rfl
  | command | element =>
    obtain ⟨tail, rfl⟩ := List.head?_eq_some_iff.mp ends
    exact absurd same.symm (first.ne_cons (by decide) (by simp))

theorem ends_first (others : Phrase (.many what)) {more : List Lexeme}
    (ends : (Category.many what).Ends more) :
    (Category.one what).Ends (others.lexemes ++ more) := by
  cases what with
  | join rank => exact Category.ends_operand others ends
  | command => trivial
  | element => trivial

theorem unique_none : (none : Phrase (.many what)).Unique := by
  intro q more more' ends _ same
  cases q with
  | none => exact ⟨rfl, same⟩
  | more first others =>
    simp only [lexemes, List.nil_append, List.append_assoc] at same
    exact absurd same (ends_ne first ends)

theorem unique_more {first : Phrase (.one what)} {others : Phrase (.many what)}
    (ih : first.Unique) (ihs : others.Unique) : (more first others).Unique := by
  intro q more more' ends ends' same
  cases q with
  | none =>
    simp only [lexemes, List.nil_append, List.append_assoc] at same
    exact absurd same.symm (ends_ne first ends')
  | more first' others' =>
    simp only [lexemes, List.append_assoc] at same
    obtain ⟨rfl, tail⟩ := ih first' _ _ (ends_first others ends) (ends_first others' ends') same
    obtain ⟨rfl, rest⟩ := ihs others' _ _ ends ends' tail
    exact ⟨rfl, rest⟩

end Rows

section Commands

theorem unique_single {inner : Phrase (.one .command)} (ih : inner.Unique) :
    (single inner).Unique := by
  intro q more more' _ _ same
  cases q with
  | single inner' =>
    obtain ⟨rfl, rest⟩ := ih inner' _ _ trivial trivial same
    exact ⟨rfl, rest⟩
  | block first others =>
    exact absurd same (inner.ne_cons (by simp [Category.starts]) (by simp))

theorem unique_block {first : Phrase (.one .command)} {others : Phrase (.many .command)}
    (ih : first.Unique) (ihs : others.Unique) : (block first others).Unique := by
  intro q more more' _ _ same
  cases q with
  | single inner' =>
    exact absurd same.symm (inner'.ne_cons (by simp [Category.starts]) (by simp))
  | block first' others' =>
    simp only [lexemes, List.cons_append, List.append_assoc, List.cons.injEq, true_and,
      List.nil_append] at same
    obtain ⟨rfl, tail⟩ := ih first' _ _ trivial trivial same
    obtain ⟨rfl, rest⟩ := ihs others' _ _ Category.ends_commands Category.ends_commands tail
    exact ⟨rfl, (List.cons_eq_cons.mp rest).2⟩

theorem unique_assigned {inner : Phrase .assignment} (ih : inner.Unique) :
    (assigned inner).Unique := by
  intro q more more' _ _ same
  cases q with
  | assigned inner' =>
    simp only [lexemes, List.append_assoc] at same
    obtain ⟨rfl, rest⟩ := ih inner' _ _ Category.ends_semicolon Category.ends_semicolon same
    exact ⟨rfl, (List.cons_eq_cons.mp rest).2⟩
  | conditioned inner' =>
    simp only [lexemes, List.append_assoc] at same
    exact absurd same (append_ne inner inner' (by simp [Category.starts]) (by simp) (by simp))

theorem unique_conditioned {inner : Phrase .conditional} (ih : inner.Unique) :
    (conditioned inner).Unique := by
  intro q more more' _ _ same
  cases q with
  | assigned inner' =>
    simp only [lexemes, List.append_assoc] at same
    exact absurd same (append_ne inner inner' (by simp [Category.starts]) (by simp) (by simp))
  | conditioned inner' =>
    obtain ⟨rfl, rest⟩ := ih inner' _ _ trivial trivial same
    exact ⟨rfl, rest⟩

theorem unique_scope {first : Phrase (.one .element)} {others : Phrase (.many .element)}
    (ih : first.Unique) (ihs : others.Unique) : (scope first others).Unique := by
  intro q more more' _ _ same
  cases q with
  | scope first' others' =>
    simp only [lexemes, List.cons_append, List.append_assoc, List.cons.injEq, true_and,
      List.nil_append] at same
    obtain ⟨rfl, tail⟩ := ih first' _ _ trivial trivial same
    obtain ⟨rfl, rest⟩ := ihs others' _ _ Category.ends_elements Category.ends_elements tail
    exact ⟨rfl, (List.cons_eq_cons.mp rest).2⟩

theorem unique_plain {inner : Phrase (.one .command)} (ih : inner.Unique) :
    (plain inner).Unique := by
  intro q more more' _ _ same
  cases q with
  | plain inner' =>
    obtain ⟨rfl, rest⟩ := ih inner' _ _ trivial trivial same
    exact ⟨rfl, rest⟩
  | enclosed inner' =>
    exact absurd same (append_ne inner inner' (by simp [Category.starts]) (by simp) (by simp))

theorem unique_enclosed {inner : Phrase .scope} (ih : inner.Unique) :
    (enclosed inner).Unique := by
  intro q more more' _ _ same
  cases q with
  | plain inner' =>
    exact absurd same (append_ne inner inner' (by simp [Category.starts]) (by simp) (by simp))
  | enclosed inner' =>
    obtain ⟨rfl, rest⟩ := ih inner' _ _ trivial trivial same
    exact ⟨rfl, rest⟩

end Commands

/-- Every phrase is the only one of its category that starts where it does and ends
properly. -/
theorem unique {c : Category} (p : Phrase c) : p.Unique := by
  induction p with
  | number text => exact unique_number text
  | var name => exact unique_var name
  | head word conditional => exact unique_head word conditional
  | call word operation argument ih => exact unique_call word operation ih
  | group inner ih => exact unique_group ih
  | product inner ih =>
    exact ih.wrap .product (by rintro ⟨⟩; exact ⟨_, rfl⟩) (fun _ => rfl) fun _ => id
  | power inner ih =>
    exact ih.wrap .power (by rintro ⟨⟩; exact ⟨_, rfl⟩) (fun _ => rfl) fun _ => id
  | primary inner ih =>
    exact ih.wrap .primary (by rintro ⟨⟩; exact ⟨_, rfl⟩) (fun _ => rfl)
      fun _ _ => trivial
  | expression inner ih =>
    exact ih.wrap .expression (by rintro ⟨⟩; exact ⟨_, rfl⟩) (fun _ => rfl) fun _ => id
  | joined first joins ih ihs => exact unique_joined ih ihs
  | join op member right ih => exact unique_join op member ih
  | assignment target value ih => exact unique_assignment target ih
  | conditional word conditional condition body ih ihs =>
    exact unique_conditional word conditional ih ihs
  | single inner ih => exact unique_single ih
  | block first others ih ihs => exact unique_block ih ihs
  | assigned inner ih => exact unique_assigned ih
  | conditioned inner ih => exact unique_conditioned ih
  | scope first others ih ihs => exact unique_scope ih ihs
  | plain inner ih => exact unique_plain ih
  | enclosed inner ih => exact unique_enclosed ih
  | none => exact unique_none
  | more first others ih ihs => exact unique_more ih ihs

/-- Where the input may end after a phrase, it has one derivation. -/
theorem eq_of_lexemes_eq {c : Category} {p q : Phrase c} (same : p.lexemes = q.lexemes)
    (ends : c.Ends [] := by trivial) : p = q :=
  (p.unique q [] [] ends ends (by rw [same])).1

end LinkedScopes.Phrase
