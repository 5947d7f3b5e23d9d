import LinkedScopes.Proofs.Disk.Reading
import LinkedScopes.Proofs.Journal.Upkeep

/-! What a journal's file holds. A filter only chooses which records come to a journal of
everything, and such a journal has the records that came to it in its file, one after the other. So
the file is no older than the first record that passes the filter, and is nothing but the records
that did. -/
namespace LinkedScopes

open Disk (SameBut)

namespace Journal

inductive Step where
  | log (r : Record)
  | flush

/-- The record that a step has to add, which is one that passes the filter. -/
def Step.kept (filter : Option Level) : Step → Option Record
  | log r => if r.level.passes filter then some r else none
  | flush => none

/-- The records that pass the filter, in order. -/
def kept (filter : Option Level) (steps : List Step) : List Record :=
  steps.filterMap (Step.kept filter)

def written (records : List Record) : ByteArray :=
  (String.join (records.map Record.line)).toUTF8

def step (j : Journal) : Step → Journal
  | .log r => j.log r
  | .flush => j.flush

def after (j : Journal) (steps : List Step) : Journal := steps.foldl step j

def behind (j : Journal) (filter : Option Level) : Journal := { j with filter }

variable {path : String} {disk : Disk} {place : Location} {j : Journal}

theorem filter_log (j : Journal) (r : Record) : (j.log r).filter = j.filter := by
  obtain ⟨path, filter, disk, sink, complaints⟩ := j
  rw [log]
  split
  · cases sink with
    | unused => cases created : disk.create path <;> simp [ready, write, created]
    | opened place => rfl
    | failed => rfl
  · rfl

theorem log_behind (all : j.filter = some .trace) {filter : Option Level} {r : Record}
    (passed : r.level.passes filter = true) :
    (j.behind filter).log r = (j.log r).behind filter := by
  have passes : (j.behind filter).passes r = true := passed
  rw [log_of_all all, log, if_pos passes]
  obtain ⟨path, _, disk, sink, complaints⟩ := j
  cases sink with
  | unused => cases created : disk.create path <;> simp [behind, ready, write, created]
  | opened place => rfl
  | failed => rfl

theorem step_of_none {s : Step} (idle : s.kept j.filter = none) : j.step s = j := by
  cases s with
  | flush => rfl
  | log r =>
    by_cases passed : r.level.passes j.filter = true
    · simp [Step.kept, passed] at idle
    · exact if_neg passed

theorem step_of_some (all : j.filter = some .trace) {filter : Option Level} {s : Step} {r : Record}
    (adds : s.kept filter = some r) : (j.behind filter).step s = (j.log r).behind filter := by
  cases s with
  | flush => cases adds
  | log r' =>
    obtain ⟨passed, same⟩ := Option.ite_none_right_eq_some.mp adds
    obtain rfl := Option.some.inj same
    exact log_behind all passed

/-- What comes through the filter is all that the journal behind it gets. -/
theorem after_behind (all : j.filter = some .trace) (filter : Option Level) (steps : List Step) :
    (j.behind filter).after steps = ((kept filter steps).foldl log j).behind filter := by
  induction steps generalizing j with
  | nil => rfl
  | cons s steps ih =>
    rw [after, List.foldl_cons, kept, List.filterMap_cons]
    cases adds : s.kept filter with
    | none =>
      rw [step_of_none adds]
      exact ih all
    | some r =>
      rw [step_of_some all adds]
      exact ih ((filter_log j r).trans all)

/-- The file is open, and records are all it holds. -/
structure Holds (place : Location) (records : List Record) (j : Journal) : Prop where
  opened : j.sink = .opened place
  held : j.disk.lookup place = some (.file (written records))

theorem written_append (records : List Record) (r : Record) :
    written (records ++ [r]) = written records ++ r.line.toUTF8 := by
  simp [written]

theorem Holds.log {records : List Record} (holds : Holds place records j)
    (all : j.filter = some .trace) (r : Record) : Holds place (records ++ [r]) (j.log r) := by
  have ready : j.ready = j := by rw [ready, holds.opened]
  rw [log_of_all all, ready, write, holds.opened]
  refine ⟨rfl, ?_⟩
  rw [written_append]
  exact Disk.lookup_append holds.held _

theorem holds_first (found : disk.target path = .ok place) (r : Record) :
    Holds place [r] ((begun path disk).log r) := by
  obtain ⟨-, -, free⟩ := Disk.target_ok found
  have created : disk.create path = .ok (place, disk.put place (.file ByteArray.empty)) := by
    rw [Disk.create, found]
    rfl
  have ready : (begun path disk).ready = { begun path disk with
      sink := .opened place, disk := disk.put place (.file ByteArray.empty) } := by
    simp only [ready, begun, created]
  rw [log_of_all rfl, ready]
  refine ⟨rfl, ?_⟩
  have line : written [r] = ByteArray.empty ++ r.line.toUTF8 := by simp [written]
  rw [line]
  exact Disk.lookup_append (Disk.lookup_put free _) _

theorem Holds.foldl {before : List Record} (holds : Holds place before j)
    (all : j.filter = some .trace) (records : List Record) :
    Holds place (before ++ records) (records.foldl Journal.log j) := by
  induction records generalizing before j with
  | nil => rwa [List.append_nil]
  | cons r records ih =>
    rw [List.append_cons]
    exact ih (holds.log all r) ((filter_log j r).trans all)

theorem Kept.frame (kept : Kept path disk j) (found : disk.target path = .ok place) :
    SameBut place disk j.disk :=
  fun _ elsewhere => kept.lookup_eq fun other => elsewhere (Except.ok.inj (other.symm.trans found))

theorem Kept.disk_of_refused (kept : Kept path disk j) {failure : DiskFailure}
    (refused : disk.create path = .error failure) : j.disk = disk := by
  cases kept with
  | unused => rfl
  | opened named frame =>
    rw [Disk.create, named] at refused
    cases refused
  | failed found => rfl

theorem kept_foldl (path : String) (disk : Disk) (records : List Record) :
    Kept path disk (records.foldl log (begun path disk)) ∧
      (records ≠ [] → (records.foldl log (begun path disk)).sink ≠ .unused) :=
  Kept.unused.foldl records

/-- Once anything came to a journal of everything, its file holds what came. -/
theorem bytes_foldl (found : disk.target path = .ok place) (records : List Record) :
    (records.foldl log (begun path disk)).disk.bytes path =
      if records = [] then disk.bytes path else .ok (written records) := by
  cases records with
  | nil => rfl
  | cons r records =>
    have holds := (holds_first found r).foldl ((filter_log _ r).trans rfl) records
    obtain ⟨kept, -⟩ := kept_foldl path disk (r :: records)
    rw [if_neg (List.cons_ne_nil r records)]
    exact Disk.bytes_of_target found (kept.frame found) holds.held

/-- What a journal at a path, with a filter, has made of a disk by some steps. -/
structure Exact (path : String) (filter : Option Level) (disk : Disk) (steps : List Step)
    (j : Journal) : Prop where
  /-- A file that was not there is there once a record passed the filter, and holds those that
  passed. -/
  fresh {place : Location} : disk.target path = .ok place → disk.lookup place = none →
    j.disk.bytes path =
      if kept filter steps = [] then .error .notFound else .ok (written (kept filter steps))
  /-- What an older file held is there until then, and no longer. -/
  older {place : Location} {old : ByteArray} : disk.target path = .ok place →
    disk.lookup place = some (.file old) →
    j.disk.bytes path = .ok (if kept filter steps = [] then old else written (kept filter steps))
  /-- No other file is touched, and nothing goes wrong. -/
  frame {place : Location} : disk.target path = .ok place →
    SameBut place disk j.disk ∧ j.complaints = []
  /-- Where no file can be there is never one, which is said once. -/
  refused {failure : DiskFailure} : disk.create path = .error failure → j.disk = disk ∧
    j.complaints = if kept filter steps = [] then [] else [complaint path failure.message]
  idle (s : Step) : s.kept filter = none → j.step s = j

/-- After any steps a journal's file is exactly what passed the filter so far. -/
theorem file_exact (path : String) (filter : Option Level) (disk : Disk) (steps : List Step) :
    Exact path filter disk steps (({ path, filter, disk } : Journal).after steps) := by
  have run : ({ path, filter, disk } : Journal).after steps =
      ((kept filter steps).foldl log (begun path disk)).behind filter :=
    after_behind (j := begun path disk) rfl filter steps
  rw [run]
  obtain ⟨kept, used⟩ := kept_foldl path disk (kept filter steps)
  constructor
  case fresh =>
    intro place found nothing
    refine (bytes_foldl found _).trans ?_
    rw [Disk.bytes_of_target_empty found nothing]
  case older =>
    intro place old found holds
    refine (bytes_foldl found _).trans ?_
    rw [Disk.bytes_of_target found (fun _ _ => rfl) holds, apply_ite Except.ok]
  case frame =>
    intro place found
    have created (failure : DiskFailure) : disk.create path ≠ .error failure := by
      intro refused
      rw [Disk.create, found] at refused
      cases refused
    exact ⟨kept.frame found, kept.complaints_of_created created⟩
  case refused =>
    intro failure refused
    refine ⟨kept.disk_of_refused refused, ?_⟩
    split
    · next none => rw [none]; rfl
    · next some => exact kept.complaints_of_refused (used some) refused
  case idle => exact fun s adds => step_of_none adds

/-- A text to be kept, and one that is too light. -/
theorem file_exact_debug :
    let steps : List Step := [.log ⟨.debug, "a", "b"⟩, .log ⟨.trace, "a", "c"⟩, .flush]
    Disk.empty.target "log" = .ok (Location.working.step "log") ∧
      Disk.empty.lookup (Location.working.step "log") = none ∧
      (({ path := "log", filter := some .debug, disk := .empty } : Journal).after steps).disk.bytes
        "log" = .ok "[DEBUG] a: b\n".toUTF8 :=
  have found : Disk.empty.target "log" = .ok (Location.working.step "log") := by rfl
  have nothing : Disk.empty.lookup (Location.working.step "log") = none := by rfl
  ⟨found, nothing, (file_exact "log" (some .debug) .empty _).fresh found nothing⟩

end Journal
end LinkedScopes
