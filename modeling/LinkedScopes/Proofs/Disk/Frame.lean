import LinkedScopes.Disk.Basic

/-! What writing at one place leaves alone. A disk is only ever looked at place by place,
so two disks are compared that way and not by how their entries are listed. -/
namespace LinkedScopes.Disk

/-- Every place but one holds what it held. -/
def SameBut (place : Location) (before after : Disk) : Prop :=
  ∀ l, l ≠ place → after.lookup l = before.lookup l

theorem SameBut.trans {place : Location} {a b c : Disk} (first : SameBut place a b)
    (second : SameBut place b c) : SameBut place a c :=
  fun l elsewhere => (second l elsewhere).trans (first l elsewhere)

theorem entries_filter_lookup {place l : Location} (elsewhere : l ≠ place)
    (entries : List (Location × DiskEntry)) :
    (entries.filter fun entry => entry.1 ≠ place).lookup l = entries.lookup l := by
  induction entries with
  | nil => rfl
  | cons entry entries ih =>
    obtain ⟨key, content⟩ := entry
    by_cases dropped : key = place
    · have other : (l == key) = false := beq_false_of_ne (dropped ▸ elsewhere)
      rw [List.filter_cons_of_neg (by simpa using dropped), List.lookup_cons, other, ih]
    · rw [List.filter_cons_of_pos (by simpa using dropped), List.lookup_cons,
        List.lookup_cons, ih]

theorem sameBut_put (disk : Disk) (place : Location) (content : DiskEntry) :
    SameBut place disk (disk.put place content) := by
  intro l elsewhere
  have other : (l == place) = false := beq_false_of_ne elsewhere
  rw [lookup, lookup, put, List.lookup_cons, other, entries_filter_lookup elsewhere]

theorem entries_append_lookup {place l : Location} (elsewhere : l ≠ place)
    (bytes : ByteArray) (entries : List (Location × DiskEntry)) :
    (append ⟨entries⟩ place bytes).entries.lookup l = entries.lookup l := by
  induction entries with
  | nil => rfl
  | cons entry entries ih =>
    obtain ⟨key, content⟩ := entry
    simp only [append, List.map_cons] at ih ⊢
    by_cases changed : key = place
    · have other : (l == key) = false := beq_false_of_ne (changed ▸ elsewhere)
      rw [if_pos changed]
      cases content <;> rw [List.lookup_cons, List.lookup_cons, other, ih]
    · rw [if_neg changed, List.lookup_cons, List.lookup_cons, ih]

theorem sameBut_append (disk : Disk) (place : Location) (bytes : ByteArray) :
    SameBut place disk (disk.append place bytes) := by
  intro l elsewhere
  rw [lookup, lookup, entries_append_lookup elsewhere]

/-- The file that is opened stands where its path leads, and opening it touches nothing
else. -/
theorem create_ok {disk disk' : Disk} {path : String} {place : Location}
    (created : disk.create path = .ok (place, disk')) :
    disk.target path = .ok place ∧ SameBut place disk disk' := by
  rw [create] at created
  cases named : disk.target path with
  | error failure => rw [named] at created; cases created
  | ok found =>
    rw [named] at created
    obtain ⟨rfl, rfl⟩ := Prod.mk.inj (Except.ok.inj created)
    exact ⟨rfl, sameBut_put disk found _⟩

end LinkedScopes.Disk
