import NavTree.Proofs.Files.Looks

/-! # Edits of a disk

Writing, removing and moving a file come down to edits at single places. Which edits they are is
read off any disk on which the paths are found as they are found there, so the same edits are made
on all of them.
-/
namespace NavTree.Disk

variable {old d e new : Disk} {p q : String} {content : ByteArray} {l : Location}
  {places : List Location} {x : Location × Option ByteArray} {xs : List (Location × Option ByteArray)}

/-- Puts a file at a place, or takes away what is there. -/
def edit (d : Disk) (x : Location × Option ByteArray) : Disk :=
  match x.2 with
  | some content => d.put x.1 (.file content)
  | none => d.erase x.1

def edits (d : Disk) (xs : List (Location × Option ByteArray)) : Disk := xs.foldl edit d

theorem at?_edit (d : Disk) (x : Location × Option ByteArray) (h : isOuter x.1 = false)
    (l : Location) :
    (d.edit x).at? l = if l = x.1 then x.2.map .file else d.at? l := by
  obtain ⟨loc, content⟩ := x
  cases content with
  | none => exact at?_erase d loc l h
  | some content => exact at?_put d loc l _ h

theorem at?_edits_congr (h : ∀ x ∈ xs, isOuter x.1 = false) (he : d.at? l = e.at? l) :
    (d.edits xs).at? l = (e.edits xs).at? l := by
  induction xs generalizing d e with
  | nil => exact he
  | cons x xs ih =>
    obtain ⟨hx, hxs⟩ := List.forall_mem_cons.mp h
    exact ih hxs (by rw [at?_edit d x hx, at?_edit e x hx, he])

theorem at?_edits_of_notMem (h : ∀ x ∈ xs, isOuter x.1 = false) (hl : l ∉ xs.map (·.1)) :
    (d.edits xs).at? l = d.at? l := by
  induction xs generalizing d with
  | nil => rfl
  | cons x xs ih =>
    obtain ⟨hx, hxs⟩ := List.forall_mem_cons.mp h
    rw [List.map_cons, List.mem_cons, not_or] at hl
    exact (ih hxs hl.2).trans (by rw [at?_edit d x hx, if_neg hl.1])

/-- What is put at a place that is edited in one way only is what stands there afterwards. -/
theorem at?_edits_of_mem (h : ∀ x ∈ xs, isOuter x.1 = false) {content : Option ByteArray}
    (hm : (l, content) ∈ xs) (hall : ∀ x ∈ xs, x.1 = l → x.2 = content) :
    (d.edits xs).at? l = content.map .file := by
  induction xs generalizing d with
  | nil => simp at hm
  | cons x xs ih =>
    obtain ⟨hx, hxs⟩ := List.forall_mem_cons.mp h
    obtain ⟨hone, hrest⟩ := List.forall_mem_cons.mp hall
    by_cases hin : l ∈ xs.map (·.1)
    · obtain ⟨y, hy, hl⟩ := List.mem_map.mp hin
      have hagain : (l, content) ∈ xs := by
        rw [← hl, ← hrest y hy hl]
        exact hy
      exact ih hxs hagain hrest
    · have hhead : x = (l, content) := by
        rcases List.mem_cons.mp hm with hm | hm
        · exact hm.symm
        · exact absurd (List.mem_map_of_mem hm) hin
      have hlast : ((d.edit x).edits xs).at? l = (d.edit x).at? l := at?_edits_of_notMem hxs hin
      have hedit := at?_edit d x hx l
      rw [hhead, if_pos rfl] at hedit
      exact hlast.trans (hhead ▸ hedit)

def holdsDirectory (d : Disk) (l : Location) : Bool :=
  match d.at? l with
  | some .directory => true
  | _ => false

theorem holdsDirectory_eq_true : d.holdsDirectory l = true ↔ d.at? l = some .directory := by
  rw [holdsDirectory]
  split <;> simp_all

/-- The places that no directory stands at. -/
def changeable (d : Disk) (places : List Location) : List Location :=
  places.filter fun l => !d.holdsDirectory l

theorem mem_changeable :
    l ∈ d.changeable places ↔ l ∈ places ∧ d.at? l ≠ some .directory := by
  rw [changeable, List.mem_filter, Bool.not_eq_true', ← Bool.not_eq_true, holdsDirectory_eq_true]

theorem isOuter_of_mem_changeable (h : l ∈ d.changeable places) : isOuter l = false :=
  isOuter_eq_false (mem_changeable.mp h).2

theorem Fades.toOver (h : Fades d e) : Over d e := by
  constructor
  · intro loc target he
    rcases h loc with hs | hs | ⟨content, hs⟩
    · exact hs ▸ he
    · simp [hs] at he
    · simp [hs] at he
  · intro loc he
    rcases h loc with hs | hs | ⟨content, hs⟩
    · exact .inl (hs ▸ he)
    · simp [hs] at he
    · simp [hs] at he

theorem Fades.not_directory (h : Fades d e) (hd : d.at? l ≠ some .directory) :
    e.at? l ≠ some .directory := by
  rcases h l with he | he | ⟨content, he⟩
  · rwa [he]
  · simp [he]
  · simp [he]

/-- A disk is as it was but at some places, where entries have gone or become files. Directories
stay. -/
structure Stays (old : Disk) (places : List Location) (d : Disk) : Prop where
  elsewhere : ∀ {l}, l ∉ old.changeable places → d.at? l = old.at? l
  fades : Fades old d

namespace Stays

theorem refl (old : Disk) (places : List Location) : Stays old places old :=
  ⟨fun _ => rfl, fun _ => .inl rfl⟩

theorem toOver (h : Stays old places d) : Over old d := h.fades.toOver

theorem mono {places' : List Location} (h : Stays old places d) (hs : places ⊆ places') :
    Stays old places' d := by
  refine ⟨fun hl => h.elsewhere fun hm => hl ?_, h.fades⟩
  obtain ⟨hm, hd⟩ := mem_changeable.mp hm
  exact mem_changeable.mpr ⟨hs hm, hd⟩

theorem mem_changeable (h : Stays old places d) (hm : l ∈ places)
    (hd : d.at? l ≠ some .directory) : l ∈ old.changeable places := by
  by_contra hl
  rw [h.elsewhere hl] at hd
  exact hl (Disk.mem_changeable.mpr ⟨hm, hd⟩)

theorem edit (h : Stays old places d) (hl : l ∈ old.changeable places)
    (content : Option ByteArray) : Stays old places (d.edit (l, content)) := by
  have hat := at?_edit d (l, content) (isOuter_of_mem_changeable hl)
  refine ⟨fun {k} hk => ?_, fun k => ?_⟩
  · have hne : k ≠ l := by
      rintro rfl
      exact hk hl
    rw [hat, if_neg hne, h.elsewhere hk]
  · rw [hat]
    split
    · cases content with
      | none => exact .inr (.inl rfl)
      | some content => exact .inr (.inr ⟨content, rfl⟩)
    · exact h.fades k

theorem edits (h : Stays old places d) (hx : ∀ x ∈ xs, x.1 ∈ old.changeable places) :
    Stays old places (d.edits xs) := by
  induction xs generalizing d with
  | nil => exact h
  | cons x xs ih =>
    obtain ⟨hx, hxs⟩ := List.forall_mem_cons.mp hx
    exact ih (h.edit hx x.2) hxs

theorem not_link (h : Stays old places d) (hl : ∀ target, old.at? l ≠ some (.link target))
    (target : String) : d.at? l ≠ some (.link target) := fun he => hl target (h.toOver.link he)

/-- What is not changed is kept from any time to any other one. -/
theorem keeps {new : Disk} {links : List Location} (h : Stays old places d)
    (h' : Stays old places new) (hl : ∀ l ∈ links, l ∉ old.changeable places) :
    Keeps d new links := by
  constructor
  · intro l hd
    have hold : old.at? l = some .directory := by
      by_contra hne
      exact h.fades.not_directory hne hd
    rw [h'.elsewhere fun hm => (Disk.mem_changeable.mp hm).2 hold, hold]
  · intro l target hm he
    rw [h'.elsewhere (hl l hm), ← h.elsewhere (hl l hm), he]

end Stays

/-- A disk has no links but those among its entries. -/
theorem not_link_of_entries (h : ∀ x ∈ d.entries, ∀ target, x.2 ≠ .link target) (l : Location)
    (target : String) : d.at? l ≠ some (.link target) := by
  intro he
  rw [at?] at he
  split at he
  · cases he
  · obtain ⟨front, tail, hs, -⟩ := List.lookup_eq_some_iff.mp he
    exact h (l, .link target) (by simp [hs]) target rfl

/-- A path is found on a disk as it is found on another one. -/
def Alike (e d : Disk) (p : String) : Prop := ∀ purpose, d.find purpose p = e.find purpose p

theorem Alike.refl (d : Disk) (p : String) : Alike d d p := fun _ => rfl

theorem alike_of_looks (h : ∀ l ∈ e.looks p, d.at? l = e.at? l) : Alike e d p :=
  fun _ => find_congr h

theorem Alike.read (h : Alike e d p) : d.read p = e.read p := by
  rw [Disk.read, Disk.read, h]

theorem Alike.isDirectory (h : Alike e d p) : d.isDirectory p = e.isDirectory p := by
  rw [Disk.isDirectory, Disk.isDirectory, h]

variable {front : List PathPart} {n : String}

/-- A file cannot be created, or it is put where the lookup ends, which is no link or directory. -/
theorem create_eq (e : Disk) (p : String) :
    (∃ fault, ∀ d, Alike e d p → d.create p = .error fault) ∨
      ∃ spot, e.find .make p = .ok spot ∧ (spot.entry = none ∨ ∃ c, spot.entry = some (.file c)) ∧
        ∀ d, Alike e d p →
          d.create p = .ok (spot.location, d.edit (spot.location, some .empty)) := by
  cases hf : e.find .make p with
  | error fault =>
    refine .inl ⟨fault, fun d h => ?_⟩
    rw [create, h, hf]
    rfl
  | ok spot =>
    obtain ⟨location, _ | (_ | c | target), named, slashed⟩ := spot
    · refine .inr ⟨_, rfl, .inl rfl, fun d h => ?_⟩
      rw [create, h, hf]
      rfl
    · refine .inl ⟨.isDirectory, fun d h => ?_⟩
      rw [create, h, hf]
      rfl
    · refine .inr ⟨_, rfl, .inr ⟨c, rfl⟩, fun d h => ?_⟩
      rw [create, h, hf]
      rfl
    · refine .inl ⟨.tooManyLinks, fun d h => ?_⟩
      rw [create, h, hf]
      rfl

theorem isOuter_of_find {purpose : Purpose} {spot : Spot} (h : d.find purpose p = .ok spot)
    (hs : spot.entry = none ∨ ∃ c, spot.entry = some (.file c)) :
    isOuter spot.location = false := by
  have hd : spot.entry ≠ some .directory := by rcases hs with he | ⟨c, he⟩ <;> simp [he]
  exact isOuter_eq_false ((find_looks h hd).2 ▸ hd)

/-- A content that is written is put where the lookup ends. -/
theorem put_of_write : d.write p content = .ok new ↔ ∃ spot, d.find .make p = .ok spot ∧
    (spot.entry = none ∨ ∃ c, spot.entry = some (.file c)) ∧
      d.put spot.location (.file content) = new := by
  rw [write_eq_ok]
  constructor
  · rintro ⟨place, made, hc, hnew⟩
    obtain ⟨spot, hf, hs, rfl, rfl⟩ := create_eq_ok.mp hc
    rw [fill_put (isOuter_of_find hf hs)] at hnew
    exact ⟨spot, hf, hs, hnew⟩
  · rintro ⟨spot, hf, hs, hnew⟩
    refine ⟨_, _, create_eq_ok.mpr ⟨spot, hf, hs, rfl, rfl⟩, ?_⟩
    rw [fill_put (isOuter_of_find hf hs), hnew]

/-- A text cannot be written, or it is put where the lookup ends, which is no link or directory. -/
theorem write_eq (e : Disk) (p : String) (content : ByteArray) :
    (∃ fault, ∀ d, Alike e d p → d.write p content = .error fault) ∨
      ∃ spot, e.find .make p = .ok spot ∧ (spot.entry = none ∨ ∃ c, spot.entry = some (.file c)) ∧
        ∀ d, Alike e d p → d.write p content = .ok (d.edit (spot.location, some content)) := by
  refine (create_eq e p).imp ?_ ?_
  · rintro ⟨fault, h⟩
    refine ⟨fault, fun d ha => ?_⟩
    rw [write, h d ha]
    rfl
  · rintro ⟨spot, hf, hs, -⟩
    exact ⟨spot, hf, hs, fun d ha => put_of_write.mpr ⟨spot, (ha .make).trans hf, hs, rfl⟩⟩

/-- A content that is filled in is put at its place, if a file stands there. -/
theorem fill_eq (e : Disk) (l : Location) (content : ByteArray) :
    ∃ xs : List (Location × Option ByteArray), (∀ x ∈ xs, x = (l, some content)) ∧
      ∀ d : Disk, d.at? l = e.at? l → d.fill l content = d.edits xs := by
  by_cases hf : ∃ held, e.at? l = some (.file held)
  · obtain ⟨held, hf⟩ := hf
    refine ⟨[(l, some content)], by simp, fun d hd => ?_⟩
    rw [fill, hd, hf]
    rfl
  · refine ⟨[], by simp, fun d hd => ?_⟩
    rw [fill, hd]
    split
    · next held hat => exact absurd ⟨held, hat⟩ hf
    · rfl

/-- What a path names cannot be removed, or it is taken away from the place that was named. -/
theorem remove_eq (hr : Path.route p = ⟨front ++ [.name n], false⟩) (ho : Over old e) :
    (∃ fault, ∀ d, Alike e d p → d.remove p = .error fault) ∨
      e.at? (old.place p) ≠ some .directory ∧
        ∀ d, Alike e d p → d.remove p = .ok (d.edit (old.place p, none)) := by
  cases hf : e.find .name p with
  | error fault =>
    refine .inl ⟨fault, fun d h => ?_⟩
    rw [remove, h, hf]
    rfl
  | ok spot =>
    obtain rfl := find_name hr ho hf
    rcases he : e.at? (old.place p) with _ | (_ | c | target)
    · refine .inl ⟨.notFound, fun d h => ?_⟩
      rw [remove, h, hf, he]
      rfl
    · refine .inl ⟨.isDirectory, fun d h => ?_⟩
      rw [remove, h, hf, he]
      rfl
    · refine .inr ⟨by simp, fun d h => ?_⟩
      rw [remove, h, hf, he]
      rfl
    · refine .inr ⟨by simp, fun d h => ?_⟩
      rw [remove, h, hf, he]
      rfl

/-- A file cannot be moved, or it is put at the place that the other path names and taken away from
its own. -/
theorem rename_eq {front' : List PathPart} {m : String}
    (hq : Path.route q = ⟨front' ++ [.name m], false⟩)
    (hp : Path.route p = ⟨front ++ [.name n], false⟩) (ho : Over old e)
    (hne : old.place p ≠ old.place q) (hd : e.at? (old.place q) ≠ some .directory)
    (hl : ∀ target, e.at? (old.place q) ≠ some (.link target)) :
    (∃ fault, ∀ d, Alike e d q → Alike e d p → d.rename q p = .error fault) ∨
      ∃ c, e.at? (old.place q) = some (.file c) ∧ e.at? (old.place p) ≠ some .directory ∧
        ∀ d, Alike e d q → Alike e d p →
          d.rename q p = .ok (d.edits [(old.place p, some c), (old.place q, none)]) := by
  cases hf : e.find .name q with
  | error fault =>
    refine .inl ⟨fault, fun d h _ => ?_⟩
    rw [rename, h, hf]
    rfl
  | ok source =>
    obtain rfl := find_name hq ho hf
    cases hg : e.find .name p with
    | error fault =>
      refine .inl ⟨fault, fun d h h' => ?_⟩
      rw [rename, h, h', hf, hg]
      rfl
    | ok target =>
      obtain rfl := find_name hp ho hg
      rcases he : e.at? (old.place q) with _ | (_ | c | link)
      · refine .inl ⟨.notFound, fun d h h' => ?_⟩
        rw [rename, h, h', hf, hg, he]
        rfl
      · exact absurd he hd
      · by_cases hdir : e.at? (old.place p) = some .directory
        · refine .inl ⟨.isDirectory, fun d h h' => ?_⟩
          rw [rename, h, h', hf, hg, he, hdir]
          rfl
        · refine .inr ⟨c, rfl, hdir, fun d h h' => ?_⟩
          rw [rename, h, h', hf, hg, he]
          rcases hat : e.at? (old.place p) with _ | (_ | c' | link)
          · simp [bind, Except.bind, hne, edits, edit]
          · exact absurd hat hdir
          · simp [bind, Except.bind, hne, edits, edit]
          · simp [bind, Except.bind, hne, edits, edit]
      · exact absurd he (hl link)

end NavTree.Disk
