import LinkedScopes.Journal.Event
import Mathlib.Data.List.DropRight

/-! What a journal tells of closes. Each move of closes has a text of its own around its amount, so
the amounts of a move can be read off the records alone. Traces are not read: they quote tokens,
whose text may be anything. -/
namespace LinkedScopes

/-- The ways in which scopes that have closed are told of. -/
inductive Move where
  | holding | closed | payingInherited | paying | placing
deriving DecidableEq

namespace Move

def before : Move → String
  | holding => "parse_scope: holding "
  | closed => "parse_scope: closed, debt now "
  | payingInherited => "parse_scope: paying "
  | paying => "parse_command: paying "
  | placing => "parse_program: placing "

/-- The text behind the amount. -/
def behind : Move → String
  | holding | payingInherited => " inherited scope closes"
  | closed => ""
  | paying => " scope closes"
  | placing => " trailing scope closes"

def text (move : Move) (amount : Nat) : String := move.before ++ toString amount ++ move.behind

/-- The amount that a record tells, if it is one of this move. -/
def told? (move : Move) (record : Record) : Option Nat :=
  if record.level = .debug then do
    let rest ← record.message.toList.dropPrefix? move.before.toList
    let digits ← rest.dropSuffix? move.behind.toList
    if digits.all Char.isDigit then some (Nat.ofDigitChars 10 digits 0) else none
  else none

def amounts (move : Move) (records : List Record) : List Nat := records.filterMap move.told?

theorem toList_text (move : Move) (amount : Nat) :
    (move.text amount).toList =
      move.before.toList ++ ((toString amount).toList ++ move.behind.toList) := by
  simp [text]

theorem told?_text (move : Move) (amount : Nat) (target : String) :
    move.told? ⟨.debug, target, move.text amount⟩ = some amount := by
  have front : (move.text amount).toList.dropPrefix? move.before.toList =
      some ((toString amount).toList ++ move.behind.toList) :=
    List.dropPrefix?_eq_some_iff.mpr ⟨_, move.toList_text amount, BEq.rfl⟩
  have back : ((toString amount).toList ++ move.behind.toList).dropSuffix? move.behind.toList =
      some (toString amount).toList :=
    List.dropSuffix?_eq_some_iff.mpr ⟨_, rfl, BEq.rfl⟩
  have decimal : (toString amount).toList = Nat.toDigits 10 amount := String.toList_ofList
  have digits : (Nat.toDigits 10 amount).all Char.isDigit = true :=
    List.all_eq_true.mpr fun c => Nat.isDigit_of_mem_toDigits (by decide) (by decide)
  rw [told?, if_pos rfl, front, Option.bind_eq_bind, Option.bind_some, back, Option.bind_some,
    decimal, if_pos digits, Nat.ofDigitChars_ten_toDigits]

theorem not_isPrefix_before {move other : Move} (differ : move ≠ other) :
    ¬ move.before.toList <+: other.before.toList := by
  cases move <;> cases other <;> first | exact absurd rfl differ | decide

theorem told?_other {move other : Move} (differ : move ≠ other) (amount : Nat) (target : String) :
    move.told? ⟨.debug, target, other.text amount⟩ = none := by
  have front : (other.text amount).toList.dropPrefix? move.before.toList = none := by
    rw [Option.eq_none_iff_forall_ne_some]
    intro rest begins
    obtain ⟨lead, parts, same⟩ := List.dropPrefix?_eq_some_iff.mp begins
    obtain rfl := eq_of_beq same
    have own : move.before.toList <+: (other.text amount).toList := ⟨rest, parts.symm⟩
    have its : other.before.toList <+: (other.text amount).toList :=
      ⟨_, (other.toList_text amount).symm⟩
    rcases List.prefix_or_prefix_of_prefix own its with first | first
    · exact not_isPrefix_before differ first
    · exact not_isPrefix_before differ.symm first
  rw [told?, if_pos rfl, front]
  rfl

end Move

namespace Event

def amount? : Event → Move → Option Nat
  | holding closes, .holding | payingInherited closes, .payingInherited
  | paying closes, .paying | placing closes, .placing => some closes
  | closed owed, .closed => some owed
  | _, _ => none

theorem amount?_of_trace {event : Event} (traced : event.level = .trace) (move : Move) :
    event.amount? move = none := by
  cases event <;> first | rfl | cases traced

/-- Every event is recorded such that its amount can be read. -/
theorem told?_record (event : Event) (move : Move) :
    move.told? event.record = event.amount? move := by
  have told (own : Move) (closes : Nat) (debug : event.level = .debug)
      (text : event.message = own.text closes)
      (amount : ∀ move, event.amount? move = if move = own then some closes else none) :
      move.told? event.record = event.amount? move := by
    rw [record, debug, text, amount]
    by_cases same : move = own
    · rw [if_pos same, same, Move.told?_text]
    · rw [if_neg same, Move.told?_other same]
  cases event with
  | tokenized | entered | joining => rfl
  | holding closes => exact told .holding closes rfl rfl (by rintro ⟨⟩ <;> rfl)
  | closed owed =>
    have text : (closed owed).message = "parse_scope: closed, debt now " ++ toString owed := rfl
    exact told .closed owed rfl (text.trans String.append_empty.symm) (by rintro ⟨⟩ <;> rfl)
  | payingInherited closes => exact told .payingInherited closes rfl rfl (by rintro ⟨⟩ <;> rfl)
  | paying closes => exact told .paying closes rfl rfl (by rintro ⟨⟩ <;> rfl)
  | placing closes => exact told .placing closes rfl rfl (by rintro ⟨⟩ <;> rfl)

theorem amounts_map_record (events : List Event) (move : Move) :
    move.amounts (events.map record) = events.filterMap (·.amount? move) := by
  simp only [Move.amounts, List.filterMap_map, Function.comp_def, told?_record]

end Event
end LinkedScopes
