import LinkedScopes.Proofs.CommandLine.Logging
import Mathlib.Data.List.Induction
import Mathlib.Data.Nat.Digits.Defs

/-! What a command line asks for, said without reading it. Its arguments are requests one after the
other, a file by itself and an option with whatever follows it. Either all of them can be granted,
and then only the last of each kind counts and not where it stands among the other kinds, or the
first that cannot be is what is wrong. -/
namespace LinkedScopes

namespace Decimal

def digit (c : Char) : Nat := c.toNat - '0'.toNat

theorem spelled_eq (digits : List Char) :
    spelled digits = Nat.ofDigits 10 (digits.reverse.map digit) := by
  rw [Nat.ofDigits_eq_foldr, List.foldr_map, List.foldr_reverse]
  simp [spelled, digit, Nat.add_comm]

end Decimal

namespace Invocation

/-- Decimal digits, maybe after a plus, that make up a number. -/
def Denotes (value : String) (n : Nat) : Prop :=
  ∃ digits, (value.toList = digits ∨ value.toList = '+' :: digits) ∧ digits ≠ [] ∧
    (∀ c ∈ digits, c.isDigit = true) ∧ n = Nat.ofDigits 10 (digits.reverse.map Decimal.digit)

/-- A number of at most 64 bits can be a limit. -/
def IsLimit (value : String) : Prop := ∃ n, Denotes value n ∧ n < 2 ^ 64

def unsigned : List Char → List Char
  | '+' :: text => text
  | text => text

theorem unsigned_eq_iff {text digits : List Char} (each : ∀ c ∈ digits, c.isDigit = true) :
    unsigned text = digits ↔ text = digits ∨ text = '+' :: digits := by
  unfold unsigned
  split
  · next text =>
    have other : '+' :: text ≠ digits := by
      rintro rfl
      exact absurd (each '+' List.mem_cons_self) (by decide)
    simp [other]
  · next plain => exact ⟨.inl, fun either => either.resolve_right (plain digits)⟩

theorem denotes_iff {value : String} {n : Nat} :
    Denotes value n ↔ unsigned value.toList ≠ [] ∧
      (∀ c ∈ unsigned value.toList, c.isDigit = true) ∧
      n = Decimal.spelled (unsigned value.toList) := by
  simp only [Denotes, Decimal.spelled_eq]
  constructor
  · rintro ⟨digits, text, some, each, is⟩
    obtain rfl := (unsigned_eq_iff each).mpr text
    exact ⟨some, each, is⟩
  · rintro ⟨some, each, is⟩
    exact ⟨_, (unsigned_eq_iff each).mp rfl, some, each, is⟩

theorem Denotes.unique {value : String} {m n : Nat} (first : Denotes value m)
    (second : Denotes value n) : m = n := by
  rw [denotes_iff] at first second
  exact first.2.2.trans second.2.2.symm

theorem limit?_eq_some_iff {value : String} {n : Nat} :
    limit? value = some n ↔ Denotes value n ∧ n < 2 ^ 64 := by
  have unfolded : limit? value =
      if (unsigned value.toList).isEmpty || !(unsigned value.toList).all Char.isDigit then none
      else if Decimal.spelled (unsigned value.toList) < UInt64.size
        then some (Decimal.spelled (unsigned value.toList)) else none := rfl
  have size : UInt64.size = 2 ^ 64 := rfl
  rw [unfolded, denotes_iff, Option.ite_none_left_eq_some, Option.ite_none_right_eq_some, size]
  simp only [Bool.or_eq_true, List.isEmpty_iff, Bool.not_eq_true', List.all_eq_false, not_or,
    not_exists, not_and, Bool.not_eq_true, Bool.not_eq_false, Option.some.injEq]
  constructor
  · rintro ⟨⟨some, each⟩, fits, rfl⟩
    exact ⟨⟨some, each, rfl⟩, fits⟩
  · rintro ⟨⟨some, each, rfl⟩, fits⟩
    exact ⟨⟨some, each⟩, fits, rfl⟩

theorem exists_limit {value : String} (valid : IsLimit value) : ∃ n, limit? value = some n :=
  valid.imp fun _ => limit?_eq_some_iff.mpr

theorem limit?_eq_none {value : String} (invalid : ¬ IsLimit value) : limit? value = none :=
  Option.eq_none_iff_forall_ne_some.mpr fun n read => invalid ⟨n, limit?_eq_some_iff.mp read⟩

/-- An argument that asks for none to follow it. -/
def Plain (argument : String) : Prop := argument ≠ "--max-depth" ∧ argument ≠ "--log"

end Invocation

inductive Purpose where
  | depth | log | file
deriving DecidableEq

/-- What arguments are read as. An option takes what follows it, whatever that looks like; a file is
what is no option. -/
inductive Request where
  | depth (value : String)
  | log (path : String)
  | file (name : String) (plain : Invocation.Plain name)

namespace Request

def purpose : Request → Purpose
  | depth _ => .depth
  | log _ => .log
  | file _ _ => .file

def value : Request → String
  | depth value | log value | file value _ => value

def arguments : Request → List String
  | depth value => ["--max-depth", value]
  | log path => ["--log", path]
  | file name _ => [name]

def line (requests : List Request) : List String := requests.flatMap arguments

/-- What is given for a purpose, in order. -/
def given (purpose : Purpose) (requests : List Request) : List String :=
  (requests.filter (·.purpose = purpose)).map value

/-- Requests that can be granted. There may yet be no file among them. -/
structure Fine (requests : List Request) : Prop where
  limits : ∀ value ∈ given .depth requests, Invocation.IsLimit value
  single : (given .file requests).length ≤ 1

/-- What is asked for by requests that name one file. -/
structure Ask (requests : List Request) (inv : Invocation) : Prop where
  file : given .file requests = [inv.file]
  limits : ∀ value ∈ given .depth requests, Invocation.IsLimit value
  unlimited : given .depth requests = [] → inv.limit = 128
  limit {value : String} : (given .depth requests).getLast? = some value →
    Invocation.Denotes value inv.limit
  log : inv.log = (given .log requests).getLast?

/-- What is wrong with the arguments that follow requests that can be granted. -/
inductive Offends (before : List Request) : List String → UsageError → Prop
  | limitMissing : Offends before ["--max-depth"] .limitMissing
  | limitInvalid {value : String} (rest : List String) (invalid : ¬ Invocation.IsLimit value) :
    Offends before ("--max-depth" :: value :: rest) (.limitInvalid value)
  | logMissing : Offends before ["--log"] .logMissing
  | argumentUnexpected {argument : String} (rest : List String)
    (plain : Invocation.Plain argument) (second : given .file before ≠ []) :
    Offends before (argument :: rest) (.argumentUnexpected argument)
  | fileMissing (missing : given .file before = []) : Offends before [] .fileMissing

/-- Requests for different purposes moved past each other. -/
inductive Moved : List Request → List Request → Prop
  | refl (requests : List Request) : Moved requests requests
  | step {requests before after : List Request} {a b : Request} (apart : a.purpose ≠ b.purpose)
    (moved : Moved requests (before ++ a :: b :: after)) :
    Moved requests (before ++ b :: a :: after)

theorem given_concat (p : Purpose) (requests : List Request) (r : Request) :
    given p (requests ++ [r]) = given p requests ++ if r.purpose = p then [r.value] else [] := by
  by_cases same : r.purpose = p <;> simp [given, same]

theorem given_append (p : Purpose) (before after : List Request) :
    given p (before ++ after) = given p before ++ given p after := by
  simp [given]

theorem Moved.given_eq {requests requests' : List Request} (moved : Moved requests requests')
    (p : Purpose) : given p requests' = given p requests := by
  induction moved with
  | refl => rfl
  | @step before after a b apart _ ih =>
    have other : a.purpose ≠ p ∨ b.purpose ≠ p := by
      by_cases here : a.purpose = p
      · exact .inr fun there => apart (here.trans there.symm)
      · exact .inl here
    rw [← ih]
    rcases other with other | other <;> simp [given, List.filter_cons, other]

theorem line_append (before after : List Request) :
    line (before ++ after) = line before ++ line after :=
  List.flatMap_append

theorem line_cons (r : Request) (requests : List Request) :
    line (r :: requests) = r.arguments ++ line requests := rfl

theorem arguments_ne_nil (r : Request) : r.arguments ≠ [] := by
  cases r <;> exact List.cons_ne_nil _ _

/-- A request is known by its first argument, so arguments are requests in one way. -/
theorem arguments_append_inj {r r' : Request} {rest rest' : List String}
    (same : r.arguments ++ rest = r'.arguments ++ rest') : r = r' ∧ rest = rest' := by
  have first {argument argument' : String} {others others' : List String}
      (same : argument :: others = argument' :: others') : argument = argument' :=
    List.head_eq_of_cons_eq same
  match r, r' with
  | depth value, depth value' => simpa [arguments] using same
  | log path, log path' => simpa [arguments] using same
  | file name _, file name' _ => simpa [arguments] using same
  | depth _, log _ | log _, depth _ => exact absurd (first same) (by decide)
  | depth _, file _ plain => exact absurd (first same).symm plain.1
  | log _, file _ plain => exact absurd (first same).symm plain.2
  | file _ plain, depth _ => exact absurd (first same) plain.1
  | file _ plain, log _ => exact absurd (first same) plain.2

theorem line_injective {requests requests' : List Request}
    (same : line requests = line requests') : requests = requests' := by
  induction requests generalizing requests' with
  | nil =>
    cases requests' with
    | nil => rfl
    | cons r' requests' =>
      exact absurd (List.append_eq_nil_iff.mp same.symm).1 r'.arguments_ne_nil
  | cons r requests ih =>
    cases requests' with
    | nil => exact absurd (List.append_eq_nil_iff.mp same).1 r.arguments_ne_nil
    | cons r' requests' =>
      obtain ⟨rfl, rest⟩ := arguments_append_inj same
      rw [ih rest]

def lastLimit (requests : List Request) : Nat :=
  ((given .depth requests).getLast?.bind Invocation.limit?).getD defaultLimit

theorem Fine.of_append {before after : List Request} (fine : Fine (before ++ after)) :
    Fine before := by
  obtain ⟨limits, single⟩ := fine
  rw [given_append] at limits single
  rw [List.length_append] at single
  exact ⟨fun value member => limits value (List.mem_append_left _ member), by omega⟩

section Granting

open Invocation

variable {requests before : List Request} {inv : Invocation} {value : String}

theorem fine_nil : Fine [] := ⟨fun _ member => absurd member List.not_mem_nil, Nat.zero_le 1⟩

theorem Fine.depth (fine : Fine before) (valid : IsLimit value) :
    Fine (before ++ [.depth value]) where
  limits := by
    simpa [given_concat, purpose, Request.value, or_imp, forall_and, valid] using fine.limits
  single := by simpa [given_concat, purpose] using fine.single

theorem Fine.log (fine : Fine before) (path : String) : Fine (before ++ [.log path]) where
  limits := by simpa [given_concat, purpose] using fine.limits
  single := by simpa [given_concat, purpose] using fine.single

theorem Fine.file (fine : Fine before) (first : given .file before = []) {name : String}
    (plain : Plain name) : Fine (before ++ [.file name plain]) where
  limits := by simpa [given_concat, purpose] using fine.limits
  single := by simp [given_concat, purpose, first]

theorem Ask.fine (ask : Ask requests inv) : Fine requests :=
  ⟨ask.limits, by rw [ask.file]; exact Nat.le_refl 1⟩

theorem Ask.limit_eq (ask : Ask requests inv) : inv.limit = lastLimit requests := by
  unfold lastLimit
  cases last : (given .depth requests).getLast? with
  | none => exact ask.unlimited (List.getLast?_eq_none_iff.mp last)
  | some value =>
    obtain ⟨n, read⟩ := exists_limit (ask.limits value (List.mem_of_getLast? last))
    have same := (ask.limit last).unique (limit?_eq_some_iff.mp read).1
    simp [read, same]

theorem Fine.exists_ask (fine : Fine requests) (some : given .file requests ≠ []) :
    ∃ inv, Ask requests inv := by
  obtain ⟨file, others, files⟩ := List.exists_cons_of_ne_nil some
  have single := fine.single
  obtain rfl : others = [] := by simpa [files] using single
  refine ⟨⟨file, lastLimit requests, (given .log requests).getLast?⟩, files, fine.limits, ?_, ?_,
    rfl⟩
  · intro none
    simp [lastLimit, none, defaultLimit]
  · intro value last
    obtain ⟨n, read⟩ := exists_limit (fine.limits value (List.mem_of_getLast? last))
    have is : lastLimit requests = n := by simp [lastLimit, last, read]
    rw [is]
    exact (limit?_eq_some_iff.mp read).1

/-- What has been read shows only in what was asked for. -/
theorem ofArguments_line (fine : Fine requests) (rest : List String) :
    ofArguments (line requests ++ rest) = ofRest (given .file requests).head? (lastLimit requests)
      (given .log requests).getLast? rest := by
  induction requests using List.reverseRecOn generalizing rest with
  | nil => rfl
  | append_singleton requests r ih =>
    have one : line [r] = r.arguments := List.flatMap_singleton _ _
    rw [line_append, one, List.append_assoc, ih fine.of_append]
    cases r with
    | depth value =>
      have named : value ∈ given .depth (requests ++ [.depth value]) := by
        simp [given_concat, purpose, Request.value]
      obtain ⟨n, read⟩ := exists_limit (fine.limits value named)
      simp [arguments, ofRest, read, given_concat, purpose, lastLimit, Request.value]
    | log path => simp [arguments, ofRest, given_concat, purpose, lastLimit, Request.value]
    | file name plain =>
      have first : given .file requests = [] := by
        simpa [given_concat, purpose] using fine.single
      simp [arguments, ofRest_plain plain.1 plain.2, given_concat, purpose, lastLimit,
        Request.value, first]

theorem ofArguments_of_ask (ask : Ask requests inv) : ofArguments (line requests) = .ok inv := by
  have read := ofArguments_line ask.fine []
  rw [List.append_nil, ask.file, ← ask.limit_eq, ← ask.log] at read
  exact read

theorem ofRest_second {argument : String} (plain : Plain argument) (file : String) (limit : Nat)
    (log : Option String) (rest : List String) :
    ofRest (some file) limit log (argument :: rest) = .error (.argumentUnexpected argument) := by
  rw [ofRest]
  · exact fun same _ => plain.1 same
  · exact fun same _ => plain.2 same
  · exact fun _ _ same _ => plain.1 same
  · exact fun _ _ same _ => plain.2 same

theorem ofArguments_of_offends (fine : Fine requests) {rest : List String} {e : UsageError}
    (offends : Offends requests rest e) : ofArguments (line requests ++ rest) = .error e := by
  rw [ofArguments_line fine]
  cases offends with
  | limitMissing => rfl
  | limitInvalid rest invalid => rw [ofRest, limit?_eq_none invalid]
  | logMissing => rfl
  | argumentUnexpected rest plain second =>
    obtain ⟨file, others, files⟩ := List.exists_cons_of_ne_nil second
    rw [files, List.head?_cons]
    exact ofRest_second plain ..
  | fileMissing missing =>
    rw [missing]
    rfl

/-- Arguments that go on as requests that can be granted, until all are read or one is wrong. -/
def Splits (before : List Request) (arguments : List String) : Prop :=
  ∃ more rest, arguments = line more ++ rest ∧ Fine (before ++ more) ∧
    (rest = [] ∨ ∃ e, Offends (before ++ more) rest e)

theorem Splits.here (fine : Fine before) {arguments : List String}
    (ends : arguments = [] ∨ ∃ e, Offends before arguments e) : Splits before arguments :=
  ⟨[], arguments, rfl, by rwa [List.append_nil], by rwa [List.append_nil]⟩

theorem Splits.cons {r : Request} {rest : List String} (splits : Splits (before ++ [r]) rest) :
    Splits before (r.arguments ++ rest) := by
  obtain ⟨more, left, rfl, fine, ends⟩ := splits
  rw [← List.append_cons] at fine ends
  exact ⟨r :: more, left, by rw [line_cons, List.append_assoc], fine, ends⟩

/-- There is no third way for arguments to go on. -/
theorem Fine.splits {before : List Request} (fine : Fine before) (arguments : List String) :
    Splits before arguments := by
  match arguments with
  | [] => exact .here fine (.inl rfl)
  | argument :: rest =>
    by_cases depth : argument = "--max-depth"
    · subst depth
      match rest with
      | [] => exact .here fine (.inr ⟨_, .limitMissing⟩)
      | value :: rest =>
        by_cases valid : IsLimit value
        · exact ((fine.depth valid).splits rest).cons
        · exact .here fine (.inr ⟨_, .limitInvalid rest valid⟩)
    by_cases log : argument = "--log"
    · subst log
      match rest with
      | [] => exact .here fine (.inr ⟨_, .logMissing⟩)
      | path :: rest => exact ((fine.log path).splits rest).cons
    have plain : Plain argument := ⟨depth, log⟩
    by_cases first : given .file before = []
    · exact ((fine.file first plain).splits rest).cons
    · exact .here fine (.inr ⟨_, .argumentUnexpected rest plain first⟩)

theorem ask_or_offends (arguments : List String) :
    (∃ requests inv, arguments = line requests ∧ Ask requests inv) ∨
      ∃ requests rest e, arguments = line requests ++ rest ∧ Fine requests ∧
        Offends requests rest e := by
  obtain ⟨requests, rest, rfl, fine, rfl | ⟨e, offends⟩⟩ := fine_nil.splits arguments
  · rw [List.append_nil]
    by_cases missing : given .file requests = []
    · exact .inr ⟨requests, [], _, (List.append_nil _).symm, fine, .fileMissing missing⟩
    · obtain ⟨inv, ask⟩ := fine.exists_ask missing
      exact .inl ⟨requests, inv, rfl, ask⟩
  · exact .inr ⟨requests, rest, e, rfl, fine, offends⟩

theorem ofArguments_eq_ok_iff {arguments : List String} :
    ofArguments arguments = .ok inv ↔ ∃ requests, arguments = line requests ∧ Ask requests inv := by
  constructor
  · intro accepted
    obtain ⟨requests, inv', rfl, ask⟩ | ⟨requests, rest, e, rfl, fine, offends⟩ :=
      ask_or_offends arguments
    · rw [ofArguments_of_ask ask] at accepted
      exact ⟨requests, rfl, Except.ok.inj accepted ▸ ask⟩
    · rw [ofArguments_of_offends fine offends] at accepted
      cases accepted
  · rintro ⟨requests, rfl, ask⟩
    exact ofArguments_of_ask ask

theorem ofArguments_eq_error_iff {arguments : List String} {e : UsageError} :
    ofArguments arguments = .error e ↔ ∃ requests rest, arguments = line requests ++ rest ∧
      Fine requests ∧ Offends requests rest e := by
  constructor
  · intro refused
    obtain ⟨requests, inv, rfl, ask⟩ | ⟨requests, rest, e', rfl, fine, offends⟩ :=
      ask_or_offends arguments
    · rw [ofArguments_of_ask ask] at refused
      cases refused
    · rw [ofArguments_of_offends fine offends] at refused
      exact ⟨requests, rest, rfl, fine, Except.error.inj refused ▸ offends⟩
  · rintro ⟨requests, rest, rfl, fine, offends⟩
    exact ofArguments_of_offends fine offends

theorem ofArguments_line_iff : ofArguments (line requests) = .ok inv ↔ Ask requests inv := by
  rw [ofArguments_eq_ok_iff]
  constructor
  · rintro ⟨others, same, ask⟩
    exact line_injective same ▸ ask
  · exact fun ask => ⟨requests, rfl, ask⟩

theorem Ask.of_given_eq {requests' : List Request}
    (same : ∀ p, given p requests' = given p requests) (ask : Ask requests inv) :
    Ask requests' inv := by
  obtain ⟨file, limits, unlimited, limit, log⟩ := ask
  simp only [← same] at file limits unlimited limit log
  exact ⟨file, limits, unlimited, limit, log⟩

/-- A command line is accepted exactly if it is requests of which one names a file and those for a
depth give numbers. It then asks for what these requests do, wherever they stand among those for
other purposes. Otherwise what is wrong is the first that cannot be granted after requests that can,
or that no file is named when nothing else is. -/
theorem arguments_exact :
    (∀ arguments, (∃ inv, ofArguments arguments = .ok inv) ↔
      ∃ requests, arguments = line requests ∧ (∃ file, given .file requests = [file]) ∧
        ∀ value ∈ given .depth requests, IsLimit value) ∧
    (∀ requests inv, ofArguments (line requests) = .ok inv ↔ Ask requests inv) ∧
    (∀ requests requests', Moved requests requests' →
      ∀ inv, ofArguments (line requests) = .ok inv ↔ ofArguments (line requests') = .ok inv) ∧
    ∀ arguments e, ofArguments arguments = .error e ↔
      ∃ requests rest, arguments = line requests ++ rest ∧ Fine requests ∧
        Offends requests rest e := by
  refine ⟨fun arguments => ⟨?_, ?_⟩, fun _ _ => ofArguments_line_iff, ?_,
    fun _ _ => ofArguments_eq_error_iff⟩
  · rintro ⟨inv, accepted⟩
    obtain ⟨requests, rfl, ask⟩ := ofArguments_eq_ok_iff.mp accepted
    exact ⟨requests, rfl, ⟨_, ask.file⟩, ask.limits⟩
  · rintro ⟨requests, rfl, ⟨file, named⟩, limits⟩
    have fine : Fine requests := ⟨limits, by rw [named]; exact Nat.le_refl 1⟩
    obtain ⟨inv, ask⟩ := fine.exists_ask (by rw [named]; exact List.cons_ne_nil _ _)
    exact ⟨inv, ofArguments_of_ask ask⟩
  · intro requests requests' moved inv
    rw [ofArguments_line_iff, ofArguments_line_iff]
    exact ⟨.of_given_eq moved.given_eq, .of_given_eq fun p => (moved.given_eq p).symm⟩

/-- What follows an option is taken for its value, and the file may come before. -/
theorem arguments_exact_moved :
    let inv : Invocation := ⟨"b", 5, some "--log"⟩
    let file : Request := .file "b" ⟨by decide, by decide⟩
    Moved [.depth "+5", .log "--log", file] [.depth "+5", file, .log "--log"] ∧
      ofArguments ["--max-depth", "+5", "--log", "--log", "b"] = .ok inv ∧
      ofArguments ["--max-depth", "+5", "b", "--log", "--log"] = .ok inv :=
  have moved := @Moved.step _ [.depth "+5"] [] (.log "--log") (.file "b" ⟨by decide, by decide⟩)
    (by decide) (.refl _)
  have accepted : ofArguments ["--max-depth", "+5", "--log", "--log", "b"] =
      .ok ⟨"b", 5, some "--log"⟩ := rfl
  ⟨moved, accepted, (arguments_exact.2.2.1 _ _ moved _).mp accepted⟩

end Granting

end Request

end LinkedScopes
