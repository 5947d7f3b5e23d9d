import LinkedScopes.Journal.File
import LinkedScopes.Proofs.Disk.Frame

/-! What keeping a journal does besides keeping it. Whatever is logged, a journal that was
begun on a disk is in one of three conditions, and in each the disk is what it was but for
the place the journal's path leads to. -/
namespace LinkedScopes

open Disk (SameBut)

namespace Journal

/-- A journal of everything, before anything happened. -/
def begun (path : String) (disk : Disk) : Journal := { path, filter := some .trace, disk }

/-- What has become of a journal of everything. -/
inductive Kept (path : String) (disk : Disk) : Journal → Prop
  | unused : Kept path disk (begun path disk)
  /-- Its file could be opened, and nothing but the file was written. -/
  | opened {place : Location} {disk' : Disk} (named : disk.target path = .ok place)
      (frame : SameBut place disk disk') :
      Kept path disk { begun path disk with disk := disk', sink := .opened place }
  /-- Its file could not be opened, and that was said once. -/
  | failed {failure : DiskFailure} (refused : disk.create path = .error failure) :
      Kept path disk { begun path disk with
        sink := .failed, complaints := [complaint path failure.message] }

variable {path : String} {disk : Disk} {j : Journal}

theorem log_of_all (all : j.filter = some .trace) (r : Record) : j.log r = j.ready.write r := by
  have passed : j.passes r = true := by
    rw [passes, all]
    cases r.level <;> rfl
  rw [log, if_pos passed]

theorem Kept.appended {place : Location} {disk' : Disk} (named : disk.target path = .ok place)
    (frame : SameBut place disk disk') (bytes : ByteArray) :
    Kept path disk { begun path disk with
      disk := disk'.append place bytes, sink := .opened place } :=
  .opened named (frame.trans (Disk.sameBut_append disk' place bytes))

/-- The first record decides whether there is a file; all others find that decided. -/
theorem Kept.log (kept : Kept path disk j) (r : Record) :
    Kept path disk (j.log r) ∧ (j.log r).sink ≠ .unused := by
  cases kept with
  | unused =>
    rw [log_of_all rfl, ready]
    cases created : disk.create path with
    | error failure =>
      simp only [begun, created]
      exact ⟨.failed created, by simp [write]⟩
    | ok made =>
      obtain ⟨named, frame⟩ := Disk.create_ok created
      simp only [begun, created]
      exact ⟨.appended named frame _, by simp [write]⟩
  | opened named frame =>
    rw [log_of_all rfl]
    exact ⟨.appended named frame _, by simp [ready, write]⟩
  | failed refused =>
    rw [log_of_all rfl]
    exact ⟨.failed refused, by simp [ready, write]⟩

theorem Kept.foldl (kept : Kept path disk j) (records : List Record) :
    Kept path disk (records.foldl Journal.log j) ∧
      (records ≠ [] → (records.foldl Journal.log j).sink ≠ .unused) := by
  induction records generalizing j with
  | nil => exact ⟨kept, fun some => absurd rfl some⟩
  | cons r records ih =>
    obtain ⟨logged, used⟩ := kept.log r
    obtain ⟨run, later⟩ := ih logged
    refine ⟨run, fun _ => ?_⟩
    cases records with
    | nil => exact used
    | cons r' records => exact later (List.cons_ne_nil r' records)

theorem Kept.complaints_of_refused (kept : Kept path disk j) (used : j.sink ≠ .unused)
    {failure : DiskFailure} (refused : disk.create path = .error failure) :
    j.complaints = [complaint path failure.message] := by
  cases kept with
  | unused => exact absurd rfl used
  | opened named frame =>
    rw [Disk.create, named] at refused
    cases refused
  | failed found =>
    rw [Except.error.inj (found.symm.trans refused)]

theorem Kept.complaints_of_created (kept : Kept path disk j)
    (created : ∀ failure, disk.create path ≠ .error failure) : j.complaints = [] := by
  cases kept with
  | unused => rfl
  | opened named frame => rfl
  | failed refused => exact absurd refused (created _)

theorem Kept.lookup_eq (kept : Kept path disk j) {l : Location}
    (elsewhere : disk.target path ≠ .ok l) : j.disk.lookup l = disk.lookup l := by
  cases kept with
  | unused => rfl
  | opened named frame => exact frame l fun same => elsewhere (same ▸ named)
  | failed refused => rfl

end Journal
end LinkedScopes
