import LinkedScopes.Proofs.Disk.Frame

/-! What is read through a path. A path to which a file can be written leads to the place of that
file, before it is there and after: only folders are passed on the way, and none of them is
written. -/
namespace LinkedScopes.Disk

variable {disk disk' : Disk} {path : String} {place l l' : Location}

theorem walk_cons_ok {name : String} {names : List String} :
    disk.walk l (name :: names) = .ok l' ↔
      disk.lookup l = some .folder ∧ disk.walk (l.step name) names = .ok l' := by
  rw [walk]
  match disk.lookup l with
  | some .folder => simp
  | some (.file _) => simp
  | none => simp

theorem walk_append_ok {names others : List String} {l'' : Location}
    (walked : disk.walk l names = .ok l') (further : disk.walk l' others = .ok l'') :
    disk.walk l (names ++ others) = .ok l'' := by
  induction names generalizing l with
  | nil =>
    obtain rfl := Except.ok.inj walked
    exact further
  | cons name names ih =>
    obtain ⟨folder, rest⟩ := walk_cons_ok.mp walked
    exact walk_cons_ok.mpr ⟨folder, ih rest⟩

/-- Where no folder stands no walk passes, so what is written there leads none astray. -/
theorem SameBut.walk {names : List String} (frame : SameBut place disk disk')
    (free : disk.lookup place ≠ some .folder) (walked : disk.walk l names = .ok l') :
    disk'.walk l names = .ok l' := by
  induction names generalizing l with
  | nil => exact walked
  | cons name names ih =>
    obtain ⟨folder, rest⟩ := walk_cons_ok.mp walked
    have elsewhere : l ≠ place := fun same => free (same ▸ folder)
    exact walk_cons_ok.mpr ⟨(frame l elsewhere).trans folder, ih rest⟩

theorem eq_append_of_dropWhile {names parents : List String} {last : String}
    (rest : names.reverse.dropWhile (· = "") = last :: parents)
    (closed : names.getLast? ≠ some "") : names = parents.reverse ++ [last] := by
  rw [List.getLast?_eq_head?_reverse] at closed
  cases back : names.reverse with
  | nil => simp [back] at rest
  | cons name others =>
    have named : name ≠ "" := fun empty => closed (by rw [back, empty]; rfl)
    rw [back, List.dropWhile_cons_of_neg (by simpa using named)] at rest
    rw [← List.reverse_reverse names, back, rest, List.reverse_cons]

/-- The way to a place where a file can be written is a walk that ends where no folder stands. -/
theorem target_ok (found : disk.target path = .ok place) :
    path ≠ "" ∧ disk.walk (route path).1 (route path).2 = .ok place ∧
      disk.lookup place ≠ some .folder := by
  unfold target at found
  simp only [bind, Except.bind, throw, throwThe, MonadExceptOf.throw, pure, Except.pure] at found
  split at found
  · cases found
  next named =>
  split at found
  · cases found
  next last parents reached =>
  split at found
  · cases found
  next folder walked =>
  split at found
  next isFolder =>
    split at found
    · cases found
    next proper =>
    split at found
    · cases found
    next free =>
    obtain rfl := Except.ok.inj found
    have names := eq_append_of_dropWhile reached fun ends => proper (.inl ends)
    refine ⟨named, ?_, free⟩
    rw [names]
    exact walk_append_ok walked (walk_cons_ok.mpr ⟨isFolder, rfl⟩)
  · cases found
  · cases found

theorem bytes_of_walk (named : path ≠ "")
    (walked : disk.walk (route path).1 (route path).2 = .ok place) :
    disk.bytes path = match disk.lookup place with
      | some (.file bytes) => .ok bytes
      | some .folder => .error .isFolder
      | none => .error .notFound := by
  unfold bytes
  simp only [bind, Except.bind, if_neg named, pure, Except.pure, walked]
  rfl

theorem bytes_of_target {bytes : ByteArray} (found : disk.target path = .ok place)
    (frame : SameBut place disk disk') (written : disk'.lookup place = some (.file bytes)) :
    disk'.bytes path = .ok bytes := by
  obtain ⟨named, walked, free⟩ := target_ok found
  rw [bytes_of_walk named (frame.walk free walked), written]

theorem bytes_of_target_empty (found : disk.target path = .ok place)
    (nothing : disk.lookup place = none) : disk.bytes path = .error .notFound := by
  obtain ⟨named, walked, -⟩ := target_ok found
  rw [bytes_of_walk named walked, nothing]

/-! What is written at a place stands there. -/

theorem names_ne_nil (free : disk.lookup place ≠ some .folder) : place.names ≠ [] :=
  fun none => free (if_pos none)

theorem lookup_put (free : disk.lookup place ≠ some .folder) (content : DiskEntry) :
    (disk.put place content).lookup place = some content := by
  rw [lookup, if_neg (names_ne_nil free), put, List.lookup_cons_self]

theorem entries_append_lookup_self {old : ByteArray} (bytes : ByteArray)
    {entries : List (Location × DiskEntry)} (holds : entries.lookup place = some (.file old)) :
    (append ⟨entries⟩ place bytes).entries.lookup place = some (.file (old ++ bytes)) := by
  induction entries with
  | nil => cases holds
  | cons entry entries ih =>
    obtain ⟨key, content⟩ := entry
    simp only [append, List.map_cons] at ih ⊢
    by_cases here : key = place
    · subst here
      rw [List.lookup_cons_self] at holds
      obtain rfl := Option.some.inj holds
      rw [if_pos rfl, List.lookup_cons_self]
    · have other : (place == key) = false := beq_false_of_ne (Ne.symm here)
      rw [List.lookup_cons, other] at holds
      rw [if_neg here, List.lookup_cons, other, ih holds]

theorem lookup_append {old : ByteArray} (holds : disk.lookup place = some (.file old))
    (bytes : ByteArray) :
    (disk.append place bytes).lookup place = some (.file (old ++ bytes)) := by
  have free : disk.lookup place ≠ some .folder := by simp [holds]
  have named := names_ne_nil free
  rw [lookup, if_neg named] at holds ⊢
  exact entries_append_lookup_self bytes holds

end LinkedScopes.Disk
