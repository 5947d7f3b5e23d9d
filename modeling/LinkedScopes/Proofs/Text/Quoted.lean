import LinkedScopes.Proofs.Text.Told

/-! Quoted text can be told apart from what follows and stays on its line, because every
character is written in one of three ways that differ in how they start. -/
namespace LinkedScopes.Text

section Hexadecimal

theorem exists_digit_of_mem {n : Nat} {c : Char} (member : c ∈ Nat.toDigits 16 n) :
    ∃ d < 16, c = Nat.digitChar d := by
  induction n using Nat.strongRecOn with
  | _ n ih =>
    rw [Nat.toDigits_eq_if (by decide)] at member
    split at member
    next small => exact ⟨n, small, List.mem_singleton.mp member⟩
    next large =>
      rcases List.mem_append.mp member with before | last
      · exact ih (n / 16) (Nat.div_lt_self (by omega) (by decide)) before
      · exact ⟨n % 16, Nat.mod_lt n (by decide), List.mem_singleton.mp last⟩

theorem digitChar_inj : ∀ d < 16, ∀ e < 16, Nat.digitChar d = Nat.digitChar e → d = e := by
  decide

theorem hexadecimal_inj {m n : Nat} (same : Nat.toDigits 16 m = Nat.toDigits 16 n) : m = n := by
  induction m using Nat.strongRecOn generalizing n with
  | _ m ih =>
    have some (k : Nat) : Nat.toDigits 16 k ≠ [] := Nat.toDigits_ne_nil
    rw [Nat.toDigits_eq_if (n := m) (by decide), Nat.toDigits_eq_if (n := n) (by decide)] at same
    split at same <;> split at same
    next small small' => exact digitChar_inj m small n small' (List.cons.inj same).1
    next small large' =>
      exact absurd (List.append_eq_singleton_iff.mp same.symm) (by simp [some])
    next large small' => exact absurd (List.append_eq_singleton_iff.mp same) (by simp [some])
    next large large' =>
      obtain ⟨before, last⟩ := List.append_inj' same rfl
      have whole := ih (m / 16) (Nat.div_lt_self (by omega) (by decide)) before
      have rest := digitChar_inj (m % 16) (Nat.mod_lt m (by decide)) (n % 16)
        (Nat.mod_lt n (by decide)) (List.cons.inj last).1
      omega

end Hexadecimal

def letters : List (Char × Char) :=
  [('\x00', '0'), ('\t', 't'), ('\r', 'r'), ('\n', 'n'), ('"', '"'), ('\\', '\\')]

/-- How a character may stand between quotes. -/
inductive Escaped (c : Char) : List Char → Prop
  | plain (fence : c ≠ '"') (slash : c ≠ '\\') (feed : c ≠ '\n') : Escaped c [c]
  | letter {l : Char} (listed : (c, l) ∈ letters) : Escaped c ['\\', l]
  | coded : Escaped c ('\\' :: 'u' :: '\x7b' :: (Nat.toDigits 16 c.toNat ++ ['\x7d']))

theorem escape_escaped (c : Char) : Escaped c (escape c) := by
  unfold escape
  split
  case h_7 null tab ret feed fence slash =>
    split
    · exact .coded
    · exact .plain fence slash feed
  all_goals exact .letter (by decide)

theorem letters_inj : ∀ x ∈ letters, ∀ y ∈ letters, x.2 = y.2 → x.1 = y.1 := by decide

theorem letters_ne : ∀ x ∈ letters, x.2 ≠ 'u' := by decide

theorem brace_not_mem_digits (n : Nat) : '\x7d' ∉ Nat.toDigits 16 n := by
  intro member
  obtain ⟨d, small, same⟩ := exists_digit_of_mem member
  exact absurd same (by revert d; decide)

/-- No two ways of writing a character start alike. -/
theorem Escaped.unique {c d : Char} {u v r s : List Char} (first : Escaped c u)
    (second : Escaped d v) (equal : u ++ r = v ++ s) : c = d ∧ r = s := by
  cases first with
  | plain fence slash feed =>
    cases second with
    | plain fence' slash' feed' => exact List.cons.inj equal
    | letter listed => exact absurd (List.cons.inj equal).1 slash
    | coded => exact absurd (List.cons.inj equal).1 slash
  | letter listed =>
    cases second with
    | plain fence slash feed => exact absurd (List.cons.inj equal).1.symm slash
    | letter listed' =>
      obtain ⟨same, rest⟩ := List.cons.inj (List.cons.inj equal).2
      exact ⟨letters_inj _ listed _ listed' same, rest⟩
    | coded => exact absurd (List.cons.inj (List.cons.inj equal).2).1 (letters_ne _ listed)
  | coded =>
    cases second with
    | plain fence slash feed => exact absurd (List.cons.inj equal).1.symm slash
    | letter listed =>
      exact absurd (List.cons.inj (List.cons.inj equal).2).1.symm (letters_ne _ listed)
    | coded =>
      simp only [List.cons_append, List.append_assoc, List.nil_append, List.cons.injEq,
        true_and] at equal
      obtain ⟨digits, rest⟩ :=
        append_stop_inj (brace_not_mem_digits _) (brace_not_mem_digits _) equal
      exact ⟨Char.toNat_inj.mp (hexadecimal_inj digits), rest⟩

/-- The closing quote is never taken for an escaped character. -/
theorem Escaped.ne_fence {c : Char} {u r s : List Char} (is : Escaped c u) :
    '"' :: r ≠ u ++ s := by
  intro equal
  cases is with
  | plain fence slash feed => exact fence (List.cons.inj equal).1.symm
  | letter listed => exact absurd (List.cons.inj equal).1 (by decide)
  | coded => exact absurd (List.cons.inj equal).1 (by decide)

theorem Escaped.feed_not_mem {c : Char} {u : List Char} (is : Escaped c u) : '\n' ∉ u := by
  have letter : ∀ x ∈ letters, '\n' ≠ x.2 := by decide
  have digits (n : Nat) : '\n' ∉ Nat.toDigits 16 n := by
    intro member
    obtain ⟨d, small, same⟩ := exists_digit_of_mem member
    exact absurd same (by revert d; decide)
  cases is with
  | plain fence slash feed => simpa using feed.symm
  | letter listed => simpa using letter _ listed
  | coded => simp [digits]

/-- Characters are read back one by one up to the quote that none of them starts with. -/
theorem escaped_inj {cs ds r s : List Char}
    (equal : cs.flatMap escape ++ '"' :: r = ds.flatMap escape ++ '"' :: s) :
    cs = ds ∧ r = s := by
  induction cs generalizing ds with
  | nil =>
    cases ds with
    | nil => exact ⟨rfl, (List.cons.inj equal).2⟩
    | cons d ds =>
      rw [List.flatMap_cons, List.append_assoc] at equal
      exact absurd equal (escape_escaped d).ne_fence
  | cons c cs ih =>
    rw [List.flatMap_cons, List.append_assoc] at equal
    cases ds with
    | nil => exact absurd equal.symm (escape_escaped c).ne_fence
    | cons d ds =>
      rw [List.flatMap_cons, List.append_assoc] at equal
      obtain ⟨rfl, rest⟩ := (escape_escaped c).unique (escape_escaped d) equal
      obtain ⟨rfl, same⟩ := ih rest
      exact ⟨rfl, same⟩

theorem told_quoted (a b : String) : Told (a = b) (quoted a) (quoted b) := by
  intro r s equal
  simp only [quoted, String.toList_ofList, List.cons_append, List.append_assoc, List.nil_append,
    List.cons.injEq, true_and] at equal
  exact (escaped_inj equal).imp_left String.toList_inj.mp

theorem flat_quoted (a : String) : Flat (quoted a) := by
  have each (c : Char) : '\n' ∉ escape c := (escape_escaped c).feed_not_mem
  simp [Flat, quoted, each]

end LinkedScopes.Text
