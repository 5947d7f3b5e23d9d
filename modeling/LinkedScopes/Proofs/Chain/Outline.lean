import LinkedScopes.Chain.Outline
import LinkedScopes.Proofs.Chain.Term
import LinkedScopes.Proofs.Nesting.Tally
import Mathlib.Data.List.Forall2

/-! What an outline tells of a chain. It has one line for each link, in the order in which
the links stand and those of a body right after the link that holds it; a line tells all of
its link but the body, and its indentation how many bodies the link stands in. A body ends
where the indentation falls back, so nothing of the chain is lost. -/
namespace LinkedScopes

open Text

def Node.body : Node → Chain
  | .conditional _ _ body => body
  | _ => []

def Link.body (link : Link) : Chain := link.command.elim [] Node.body

/-- What holds of no links, and of a link before others if it holds of these and of its own
body, holds of every chain. -/
@[elab_as_elim]
theorem Chain.induct {motive : Chain → Prop} (nil : motive [])
    (cons : ∀ link rest, motive link.body → motive rest → motive (link :: rest))
    (chain : Chain) : motive chain :=
  @Node.rec_1 (fun node => motive node.body) (fun link => motive link.body) motive
    (fun command => motive (command.elim [] Node.body)) (fun _ => nil) (fun _ => nil)
    (fun _ _ _ _ _ => nil) (fun _ => nil) (fun _ _ _ => nil) (fun _ _ _ _ inner => inner)
    (fun _ _ _ => nil) (fun _ _ inner => inner) nil cons nil (fun _ inner => inner) chain

mutual

/-- A link and those of its body, each with the number of bodies it stands in. -/
def Link.entries (depth : Nat) : Link → List (Nat × Link)
  | ⟨marker, command⟩ => (depth, ⟨marker, command⟩) :: commandEntries (depth + 1) command

def commandEntries (depth : Nat) : Option Node → List (Nat × Link)
  | none => []
  | some command => command.entries depth

def Node.entries (depth : Nat) : Node → List (Nat × Link)
  | .conditional _ _ body => chainEntries depth body
  | _ => []

def chainEntries (depth : Nat) : List Link → List (Nat × Link)
  | [] => []
  | link :: rest => link.entries depth ++ chainEntries depth rest

end

theorem chainEntries_cons (depth : Nat) (link : Link) (rest : Chain) :
    chainEntries depth (link :: rest) =
      (depth, link) :: (chainEntries (depth + 1) link.body ++ chainEntries depth rest) := by
  obtain ⟨marker, command⟩ := link
  match command with
  | none => rfl
  | some command => cases command <;> rfl

def commandText : Option Node → String
  | none => ""
  | some (.conditional word condition _) => " " ++ word ++ " (" ++ condition.term ++ ")"
  | some command => " " ++ command.term

def entryLine (entry : Nat × Link) : String :=
  String.ofList (List.replicate (4 * entry.1) ' ') ++
    (entry.2.marker.term ++ commandText entry.2.command)

theorem Link.outline_eq (link : Link) (depth : Nat) : link.outline (4 * depth) =
    entryLine (depth, link) :: chainOutline (4 * (depth + 1)) link.body := by
  obtain ⟨marker, command⟩ := link
  simp only [Link.outline, entryLine, Nat.mul_add]
  match command with
  | none => simp [commandOutline, commandText, Link.body, chainOutline]
  | some command =>
    cases command <;> simp [commandOutline, Node.outline, commandText, Link.body, Node.body,
      chainOutline, String.append_assoc]

theorem chainOutline_eq (chain : Chain) (depth : Nat) :
    chainOutline (4 * depth) chain = (chainEntries depth chain).map entryLine := by
  induction chain using Chain.induct generalizing depth with
  | nil => rfl
  | cons link rest inner ih =>
    rw [chainOutline, chainEntries_cons, Link.outline_eq, List.map_cons, List.map_append,
      inner, ih, List.cons_append]

/-- Commands that a line does not tell apart. They may still differ in their bodies. -/
inductive HeadAlike : Option Node → Option Node → Prop
  | none : HeadAlike none none
  | assignment {target : String} {x y : Node} (alike : x.Alike y) :
    HeadAlike (some (.assignment target x)) (some (.assignment target y))
  | conditional {word : String} {a b : Node} (alike : a.Alike b) (body body' : Chain) :
    HeadAlike (some (.conditional word a body)) (some (.conditional word b body'))

theorem eq_if_or_while {word : String} (conditional : isConditionalWord word = true) :
    word = "if" ∨ word = "while" := by
  simpa [isConditionalWord, conditionalWords] using conditional

theorem told_word {word word' : String} (conditional : isConditionalWord word = true)
    (conditional' : isConditionalWord word' = true) : Told (word = word') word word' := by
  rcases eq_if_or_while conditional with rfl | rfl <;>
    rcases eq_if_or_while conditional' with rfl | rfl
  · exact (told_self _).mono fun _ => rfl
  · exact told_of_head_ne (c := 'i') (d := 'w') (by simp) (by simp) (by decide)
  · exact told_of_head_ne (c := 'w') (d := 'i') (by simp) (by simp) (by decide)
  · exact (told_self _).mono fun _ => rfl

theorem told_conditional_assignment {P : Prop} {word : String}
    (conditional : isConditionalWord word = true) (condition : Node) (body : Chain)
    (target : String) (value : Node) :
    Told P (commandText (some (.conditional word condition body)))
      (commandText (some (.assignment target value))) := by
  have shape : commandText (some (.conditional word condition body)) =
      " " ++ (word ++ (" (" ++ condition.term ++ ")")) := by
    simp [commandText, String.append_assoc]
  rw [shape]
  refine Told.after ?_ " "
  rcases eq_if_or_while conditional with rfl | rfl
  · exact told_of_head_ne (c := 'i') (by simp) (Node.head?_term _) (by simp [Node.initial])
  · exact told_of_head_ne (c := 'w') (by simp) (Node.head?_term _) (by simp [Node.initial])

theorem IsCommand.told_text {a b : Node} (is : IsCommand a) (is' : IsCommand b) :
    Told (HeadAlike (some a) (some b)) (commandText (some a)) (commandText (some b)) := by
  cases is with
  | assignment target value =>
    cases is' with
    | assignment target' value' =>
      have parts := (told_quoted target target').fields "target"
        ((value.told_term value').field "value")
      exact ((parts.labelled "Assignment").after " ").mono
        fun ⟨same, alike⟩ => same ▸ .assignment alike
    | conditional conditional' condition' some' each' =>
      exact (told_conditional_assignment conditional' _ _ _ _).symm
  | conditional conditional condition some each =>
    cases is' with
    | assignment target' value' => exact told_conditional_assignment conditional _ _ _ _
    | conditional conditional' condition' some' each' =>
      have words := ((told_word conditional conditional').after " ").before " ("
      exact ((words.append (condition.told_term condition')).before ")").mono
        fun ⟨same, alike⟩ => same ▸ .conditional alike _ _

/-- A link whose command, if it has one, is one that reading can return. -/
def Link.Sound (link : Link) : Prop := ∀ command, link.command = some command → IsCommand command

/-- Links at the same depth that their lines do not tell apart. -/
structure EntryAlike (e e' : Nat × Link) : Prop where
  depth : e.1 = e'.1
  marker : e.2.marker = e'.2.marker
  head : HeadAlike e.2.command e'.2.command

theorem indent_inj {m n : Nat} {x y : List Char} (left : ∀ c ∈ x.head?, c ≠ ' ')
    (right : ∀ c ∈ y.head?, c ≠ ' ')
    (equal : List.replicate m ' ' ++ x = List.replicate n ' ' ++ y) : m = n ∧ x = y := by
  induction m generalizing n with
  | zero =>
    cases n with
    | zero => exact ⟨rfl, equal⟩
    | succ n => exact absurd rfl (left ' ' (congrArg List.head? equal))
  | succ m ih =>
    cases n with
    | zero => exact absurd rfl (right ' ' (congrArg List.head? equal.symm))
    | succ n =>
      obtain ⟨rfl, same⟩ := ih (List.cons.inj equal).2
      exact ⟨rfl, same⟩

theorem head?_marker (marker : Marker) (rest : List Char) :
    (marker.term.toList ++ rest).head? = some 'S' := by
  cases marker <;> simp [Marker.term, Marker.tag, Tag.term]

theorem commandText_some (command : Node) :
    (commandText (some command)).toList.head? = some ' ' := by
  cases command <;> simp [commandText]

theorem headAlike_of_text_eq {command command' : Option Node}
    (sound : ∀ node, command = some node → IsCommand node)
    (sound' : ∀ node, command' = some node → IsCommand node)
    (equal : commandText command = commandText command') : HeadAlike command command' := by
  have blank (node : Node) : "" ≠ commandText (some node) := by
    intro empty
    have first := commandText_some node
    rw [← empty] at first
    simp at first
  cases command with
  | none =>
    cases command' with
    | none => exact .none
    | some b => exact absurd equal (blank b)
  | some a =>
    cases command' with
    | none => exact absurd equal.symm (blank a)
    | some b =>
      exact ((sound a rfl).told_text (sound' b rfl) [] [] (by rw [equal])).1

theorem HeadAlike.text_eq {command command' : Option Node}
    (sound : ∀ node, command = some node → IsCommand node) (alike : HeadAlike command command') :
    commandText command = commandText command' := by
  cases alike with
  | none => rfl
  | assignment alike =>
    cases sound _ rfl with
    | assignment target value =>
      simp only [commandText, Node.term, value.term_eq alike]
  | conditional alike body body' =>
    cases sound _ rfl with
    | conditional conditional condition some each =>
      simp only [commandText, condition.term_eq alike]

theorem entryLine_eq_iff {e e' : Nat × Link} (sound : e.2.Sound) (sound' : e'.2.Sound) :
    entryLine e = entryLine e' ↔ EntryAlike e e' := by
  constructor
  · intro equal
    have chars := congrArg String.toList equal
    simp only [entryLine, String.toList_append, String.toList_ofList] at chars
    have flush (marker : Marker) (rest : List Char) :
        ∀ c ∈ (marker.term.toList ++ rest).head?, c ≠ ' ' := by
      intro c first
      obtain rfl := Option.some.inj ((head?_marker marker rest).symm.trans first)
      decide
    obtain ⟨depth, rest⟩ := indent_inj (flush _ _) (flush _ _) chars
    obtain ⟨marker, text⟩ := Marker.told_term _ _ _ _ rest
    exact ⟨by omega, marker, headAlike_of_text_eq sound sound' (String.toList_inj.mp text)⟩
  · intro alike
    rw [entryLine, entryLine, alike.depth, alike.marker, alike.head.text_eq sound]

theorem flat_entryLine {e : Nat × Link} (sound : e.2.Sound) : Flat (entryLine e) := by
  have spaces : Flat (String.ofList (List.replicate (4 * e.1) ' ')) := by
    rw [Flat, String.toList_ofList]
    exact fun member => absurd (List.eq_of_mem_replicate member) (by decide)
  have text : Flat (commandText e.2.command) := by
    cases given : e.2.command with
    | none => decide
    | some command =>
      cases sound command given with
      | assignment target value =>
        have fields := (flat_quoted target).fields "target" (by decide)
          (value.flat_term.field "value" (by decide))
        exact Flat.append (by decide) (fields.labelled "Assignment" (by decide))
      | @conditional word _ _ conditional condition some each =>
        have named : Flat word := by
          rcases eq_if_or_while conditional with rfl | rfl <;> decide
        exact (((Flat.append (by decide) named).append (by decide)).append
          condition.flat_term).append (by decide)
  exact spaces.append (e.2.marker.flat_term.append text)

theorem Link.Sound.body {link : Link} (sound : link.Sound) : ∀ inner ∈ link.body, inner.Sound := by
  obtain ⟨marker, command⟩ := link
  match command, sound with
  | none, _ => exact fun _ member => absurd member List.not_mem_nil
  | some command, sound =>
    cases sound command rfl with
    | assignment target value => exact fun _ member => absurd member List.not_mem_nil
    | conditional conditional condition some each =>
      intro inner member c given
      obtain ⟨c', inside, rfl⟩ := List.mem_map.mp member
      exact Option.some.inj given ▸ each c' inside

theorem sound_of_mem_entries {chain : Chain} (sound : ∀ link ∈ chain, link.Sound) (depth : Nat) :
    ∀ e ∈ chainEntries depth chain, e.2.Sound := by
  induction chain using Chain.induct generalizing depth with
  | nil => exact fun e member => absurd member List.not_mem_nil
  | cons link rest inner ih =>
    obtain ⟨here, there⟩ := List.forall_mem_cons.mp sound
    rw [chainEntries_cons]
    exact List.forall_mem_cons.mpr ⟨here, List.forall_mem_append.mpr
      ⟨inner here.body (depth + 1), ih there depth⟩⟩

/-- What comes first of these links stands in fewer bodies. -/
def Falls (depth : Nat) (entries : List (Nat × Link)) : Prop := ∀ e ∈ entries.head?, e.1 < depth

theorem falls_append {depth : Nat} (chain : Chain) {rest : List (Nat × Link)}
    (falls : Falls depth rest) : Falls (depth + 1) (chainEntries depth chain ++ rest) := by
  intro e first
  cases chain with
  | nil => exact Nat.lt_succ_of_lt (falls e first)
  | cons link others =>
    rw [chainEntries_cons] at first
    exact Option.some.inj first ▸ Nat.lt_succ_self depth

theorem Link.alike_of_head {link link' : Link} (marker : link.marker = link'.marker)
    (head : HeadAlike link.command link'.command) (body : link.body.Alike link'.body) :
    link.Alike link' := by
  obtain ⟨m, command⟩ := link
  obtain ⟨m', command'⟩ := link'
  refine ⟨marker, ?_⟩
  cases head with
  | none => trivial
  | assignment alike => exact ⟨rfl, alike⟩
  | conditional alike inner inner' => exact ⟨rfl, alike, body⟩

/-- A chain is read back from its lines, and so is where it ends. -/
theorem alike_of_entries {c d : Chain} {depth : Nat} {rest rest' : List (Nat × Link)}
    (falls : Falls depth rest) (falls' : Falls depth rest')
    (alike : List.Forall₂ EntryAlike (chainEntries depth c ++ rest)
      (chainEntries depth d ++ rest')) :
    c.Alike d ∧ List.Forall₂ EntryAlike rest rest' := by
  induction c using Chain.induct generalizing d depth rest rest' with
  | nil =>
    cases d with
    | nil => exact ⟨trivial, alike⟩
    | cons link' others' =>
      -- The first link of the longer chain would have to be a line that falls back.
      rw [chainEntries_cons] at alike
      cases alike with
      | cons first _ => exact absurd (falls _ rfl) (by simp [first.depth])
  | cons link others inner ih =>
    rw [chainEntries_cons] at alike
    cases d with
    | nil =>
      cases alike with
      | cons first _ => exact absurd (falls' _ rfl) (by simp [← first.depth])
    | cons link' others' =>
      rw [chainEntries_cons] at alike
      simp only [List.cons_append, List.append_assoc] at alike
      cases alike with
      | cons first follow =>
        -- What follows the bodies stands in one body fewer, so both end at the same line.
        obtain ⟨body, follow⟩ := inner (falls_append others falls)
          (falls_append others' falls') follow
        obtain ⟨same, follow⟩ := ih falls falls' follow
        exact ⟨⟨Link.alike_of_head first.marker first.head body, same⟩, follow⟩

theorem Link.Alike.head {link link' : Link} (sound : link.Sound) (alike : link.Alike link') :
    link.marker = link'.marker ∧ HeadAlike link.command link'.command ∧
      link.body.Alike link'.body := by
  obtain ⟨m, command⟩ := link
  obtain ⟨m', command'⟩ := link'
  obtain ⟨marker, same⟩ := alike
  refine ⟨marker, ?_⟩
  cases command with
  | none =>
    cases command' with
    | none => exact ⟨.none, trivial⟩
    | some b => exact same.elim
  | some a =>
    cases command' with
    | none => exact same.elim
    | some b =>
      cases sound a rfl with
      | assignment target value =>
        cases b with
        | assignment target' value' =>
          obtain ⟨rfl, value⟩ := same
          exact ⟨.assignment value, trivial⟩
        | _ => exact same.elim
      | conditional conditional condition some each =>
        cases b with
        | conditional word' condition' body' =>
          obtain ⟨rfl, conditions, bodies⟩ := same
          exact ⟨.conditional conditions _ _, bodies⟩
        | _ => exact same.elim

theorem entries_of_alike {c d : Chain} (sound : ∀ link ∈ c, link.Sound) (alike : c.Alike d)
    (depth : Nat) : List.Forall₂ EntryAlike (chainEntries depth c) (chainEntries depth d) := by
  induction c using Chain.induct generalizing d depth with
  | nil =>
    cases d with
    | nil => exact .nil
    | cons link' others' => exact alike.elim
  | cons link others inner ih =>
    obtain ⟨here, there⟩ := List.forall_mem_cons.mp sound
    cases d with
    | nil => exact alike.elim
    | cons link' others' =>
      obtain ⟨first, rest⟩ := alike
      obtain ⟨marker, head, body⟩ := first.head here
      rw [chainEntries_cons, chainEntries_cons]
      exact .cons ⟨rfl, marker, head⟩
        (List.rel_append (inner here.body body (depth + 1)) (ih there rest depth))

theorem map_entryLine_eq_iff {es es' : List (Nat × Link)} (sound : ∀ e ∈ es, e.2.Sound)
    (sound' : ∀ e ∈ es', e.2.Sound) :
    es.map entryLine = es'.map entryLine ↔ List.Forall₂ EntryAlike es es' := by
  induction es generalizing es' with
  | nil => cases es' <;> simp
  | cons e es ih =>
    cases es' with
    | nil => simp
    | cons e' es' =>
      obtain ⟨here, there⟩ := List.forall_mem_cons.mp sound
      obtain ⟨here', there'⟩ := List.forall_mem_cons.mp sound'
      rw [List.map_cons, List.map_cons, List.cons.injEq, entryLine_eq_iff here here',
        ih there there', List.forall₂_cons]

/-- Lines closed by line feeds are told apart by the text they make up. -/
theorem join_lines_inj {lines lines' : List String} (flat : ∀ line ∈ lines, Flat line)
    (flat' : ∀ line ∈ lines', Flat line)
    (equal : String.join (lines.map (· ++ "\n")) = String.join (lines'.map (· ++ "\n"))) :
    lines = lines' := by
  replace equal := congrArg String.toList equal
  rw [String.toList_join, String.toList_join] at equal
  induction lines generalizing lines' with
  | nil =>
    cases lines' with
    | nil => rfl
    | cons line' lines' => simp at equal
  | cons line lines ih =>
    cases lines' with
    | nil => simp at equal
    | cons line' lines' =>
      obtain ⟨here, there⟩ := List.forall_mem_cons.mp flat
      obtain ⟨here', there'⟩ := List.forall_mem_cons.mp flat'
      have feed : "\n".toList = ['\n'] := rfl
      simp only [List.map_cons, List.flatMap_cons, String.toList_append, feed, List.append_assoc,
        List.singleton_append] at equal
      obtain ⟨same, rest⟩ := append_stop_inj here here' equal
      rw [String.toList_inj.mp same, ih there there' rest]

theorem tally_eq_body {link : Link} (sound : link.Sound) (marker : Marker) :
    link.tally marker = (if link.marker = marker then 1 else 0) + link.body.tally marker := by
  obtain ⟨own, command⟩ := link
  match command, sound with
  | none, _ => rfl
  | some command, sound =>
    cases sound command rfl with
    | assignment target value =>
      simp [Link.tally, commandTally, Node.tally, value.tally_eq_zero, Link.body, Node.body]
    | conditional conditional condition some each =>
      simp [Link.tally, commandTally, Node.tally, condition.tally_eq_zero, Link.body, Node.body,
        Chain.tally]

theorem countP_chainEntries {chain : Chain} (sound : ∀ link ∈ chain, link.Sound)
    (marker : Marker) (depth : Nat) :
    (chainEntries depth chain).countP (·.2.marker = marker) = chain.tally marker := by
  induction chain using Chain.induct generalizing depth with
  | nil => rfl
  | cons link rest inner ih =>
    obtain ⟨here, there⟩ := List.forall_mem_cons.mp sound
    rw [chainEntries_cons, List.countP_cons, List.countP_append, inner here.body, ih there,
      Chain.tally_cons, tally_eq_body here]
    simp only [decide_eq_true_eq]
    omega

theorem length_indent (e : Nat × Link) :
    ((entryLine e).toList.takeWhile (· = ' ')).length = 4 * e.1 := by
  have spaces : ∀ c ∈ List.replicate (4 * e.1) ' ', decide (c = ' ') = true := by
    intro c member
    exact decide_eq_true (List.eq_of_mem_replicate member)
  have ends : (e.2.marker.term ++ commandText e.2.command).toList.takeWhile (· = ' ') = [] := by
    rw [String.toList_append]
    have first := head?_marker e.2.marker (commandText e.2.command).toList
    obtain ⟨rest, text⟩ := List.head?_eq_some_iff.mp first
    rw [text]
    rfl
  rw [entryLine, String.toList_append, String.toList_ofList,
    List.takeWhile_append_of_pos spaces, ends]
  simp

/-- An output that lists all links of a chain, those of a body behind the link that holds
it, a line for each. -/
structure Chain.Listed (chain : Chain) (output : String) : Prop where
  text : output = String.join ((chainEntries 0 chain).map fun entry => entryLine entry ++ "\n")
  unbroken : ∀ entry ∈ chainEntries 0 chain, '\n' ∉ (entryLine entry).toList
  /-- No link is left out or listed twice. -/
  complete (marker : Marker) :
    (chainEntries 0 chain).countP (·.2.marker = marker) = chain.tally marker
  /-- A line is indented by four spaces for each body its link stands in. -/
  indented : ∀ entry ∈ chainEntries 0 chain,
    ((entryLine entry).toList.takeWhile (· = ' ')).length = 4 * entry.1

theorem Chain.listed_outline {chain : Chain} (sound : ∀ link ∈ chain, link.Sound) :
    chain.Listed chain.outline where
  text := by
    rw [Chain.outline, show chainOutline 0 chain = _ from chainOutline_eq chain 0, List.map_map]
    rfl
  unbroken entry member := flat_entryLine (sound_of_mem_entries sound 0 entry member)
  complete marker := countP_chainEntries sound marker 0
  indented entry _ := length_indent entry

theorem Chain.outline_eq_iff {c d : Chain} (sound : ∀ link ∈ c, link.Sound)
    (sound' : ∀ link ∈ d, link.Sound) : c.outline = d.outline ↔ c.Alike d := by
  have lines (chain : Chain) : chainOutline 0 chain = (chainEntries 0 chain).map entryLine :=
    chainOutline_eq chain 0
  have inside := sound_of_mem_entries sound 0
  have inside' := sound_of_mem_entries sound' 0
  rw [Chain.outline, Chain.outline, lines, lines]
  constructor
  · intro equal
    have same := join_lines_inj
      (List.forall_mem_map.mpr fun e member => flat_entryLine (inside e member))
      (List.forall_mem_map.mpr fun e member => flat_entryLine (inside' e member)) equal
    have entries := (map_entryLine_eq_iff inside inside').mp same
    have nothing : Falls 0 [] := by simp [Falls]
    exact (alike_of_entries nothing nothing (by simpa using entries)).1
  · intro alike
    rw [(map_entryLine_eq_iff inside inside').mpr (entries_of_alike sound alike 0)]

end LinkedScopes
