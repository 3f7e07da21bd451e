import NavTree.Proofs.Files.Place

/-! # Changes to a disk

What the file operations leave as it was. Nested directories are only made where nothing was; a
write, a removal or a move changes the places that its paths name.
-/
namespace NavTree.Disk

variable {old d new last : Disk} {p q : String} {content : ByteArray} {places links : List Location}
  {loc : Location}

/-- A location is as it was, or a directory was made there where nothing was. -/
def Unmoved (d new : Disk) (loc : Location) : Prop :=
  new.at? loc = d.at? loc ∨ d.at? loc = none ∧ new.at? loc = some .directory

/-- Nothing moves outside of some places, and no directory goes anywhere. -/
structure Changes (d new : Disk) (places : List Location) : Prop where
  elsewhere : ∀ {loc}, loc ∉ places → Unmoved d new loc
  directory : ∀ {loc}, d.at? loc = some .directory → new.at? loc = some .directory

namespace Unmoved

theorem trans (h : Unmoved d new loc) (h' : Unmoved new last loc) : Unmoved d last loc := by
  rcases h with h | ⟨hn, hd⟩
  · rcases h' with h' | ⟨hn', hd'⟩
    · exact .inl (h'.trans h)
    · exact .inr ⟨h ▸ hn', hd'⟩
  · rcases h' with h' | ⟨hn', _⟩
    · exact .inr ⟨hn, h'.trans hd⟩
    · simp [hd] at hn'

theorem at?_eq (h : Unmoved d new loc) {e : Entry} (he : d.at? loc = some e) :
    new.at? loc = some e := by
  rcases h with h | ⟨hn, _⟩
  · rw [h, he]
  · simp [hn] at he

end Unmoved

namespace Changes

theorem refl (d : Disk) : Changes d d places := ⟨fun _ => .inl rfl, id⟩

theorem trans (h : Changes d new places) (h' : Changes new last places) :
    Changes d last places :=
  ⟨fun hl => (h.elsewhere hl).trans (h'.elsewhere hl),
    fun hd => h'.directory (h.directory hd)⟩

theorem mono {places' : List Location} (h : Changes d new places) (hs : places ⊆ places') :
    Changes d new places' :=
  ⟨fun hl => h.elsewhere fun hm => hl (hs hm), h.directory⟩

theorem keeps (h : Changes d new places)
    (hl : ∀ l ∈ links, l ∈ places → ∀ target, d.at? l ≠ some (.link target)) :
    Keeps d new links := by
  refine ⟨h.directory, fun {l target} hm he => ?_⟩
  by_cases hp : l ∈ places
  · exact absurd he (hl l hm hp target)
  · exact (h.elsewhere hp).at?_eq he

end Changes

theorem isOuter_eq_false (h : d.at? loc ≠ some .directory) : isOuter loc = false := by
  cases ho : isOuter loc with
  | false => rfl
  | true => exact absurd (by rw [at?, if_pos ho]) h

theorem put_changes (h : d.at? loc ≠ some .directory) (e : Entry) :
    Changes d (d.put loc e) [loc] ∧ (d.put loc e).at? loc = some e := by
  have hput := fun l => at?_put d loc l e (isOuter_eq_false h)
  refine ⟨⟨fun {l} hl => .inl ?_, fun {l} hd => ?_⟩, ?_⟩
  · rw [hput, if_neg (by simpa using hl)]
  · have hl : l ≠ loc := by
      rintro rfl
      exact h hd
    rw [hput, if_neg hl, hd]
  · rw [hput, if_pos rfl]

theorem erase_changes (h : d.at? loc ≠ some .directory) :
    Changes d (d.erase loc) [loc] ∧ (d.erase loc).at? loc = none := by
  have herase := fun l => at?_erase d loc l (isOuter_eq_false h)
  refine ⟨⟨fun {l} hl => .inl ?_, fun {l} hd => ?_⟩, ?_⟩
  · rw [herase, if_neg (by simpa using hl)]
  · have hl : l ≠ loc := by
      rintro rfl
      exact h hd
    rw [herase, if_neg hl, hd]
  · rw [herase, if_pos rfl]

theorem makeDirectory_changes (h : d.makeDirectory p = .ok new) : Changes d new [] := by
  obtain ⟨spot, hf, h⟩ := bind_eq_ok.mp h
  cases he : spot.entry with
  | some e => simp [he] at h
  | none =>
    simp only [he, pure_eq_ok] at h
    subst h
    have hat : d.at? spot.location = none := by
      rw [at?_of_find_name hf (by simp [he]), he]
    have hd : d.at? spot.location ≠ some .directory := by simp [hat]
    have hput := fun l => at?_put d spot.location l .directory (isOuter_eq_false hd)
    refine ⟨fun {l} _ => ?_, fun {l} hl => ?_⟩
    · rw [Unmoved, hput]
      by_cases hl : l = spot.location
      · subst hl
        exact .inr ⟨hat, if_pos rfl⟩
      · exact .inl (if_neg hl)
    · rw [hput]
      split
      · rfl
      · exact hl

theorem makeNested_changes (d : Disk) (paths : List String) :
    Changes d (d.makeNested paths).2 [] := by
  induction paths generalizing d with
  | nil => exact .refl d
  | cons path around ih =>
    have hin := ih d
    rw [makeNested]
    split
    · next made h => exact makeDirectory_changes h
    · split
      · next fault d' h =>
        rw [h] at hin
        exact hin
      · next d' h =>
        rw [h] at hin
        split
        · next made h' => exact hin.trans (makeDirectory_changes h')
        · exact hin
    · exact .refl d

theorem makeDirectories_changes (d : Disk) (p : String) :
    Changes d (d.makeDirectories p).2 [] := makeNested_changes d _

theorem putEntry_putEntry (loc : Location) (e e' : Entry) (es : List (Location × Entry)) :
    putEntry loc e' (putEntry loc e es) = putEntry loc e' es := by
  induction es with
  | nil => simp [putEntry]
  | cons x es ih =>
    obtain ⟨l, held⟩ := x
    by_cases hl : l = loc
    · simp [putEntry, hl]
    · simp [putEntry, hl, ih]

/-- What is filled in replaces what a file was created with. -/
theorem fill_put (h : isOuter loc = false) (held : ByteArray) :
    (d.put loc (.file held)).fill loc content = d.put loc (.file content) := by
  rw [fill, at?_put _ _ _ _ h, if_pos rfl]
  exact congrArg Disk.mk (putEntry_putEntry loc _ _ d.entries)

theorem create_eq_ok {made : Disk} : d.create p = .ok (loc, made) ↔ ∃ spot,
    d.find .make p = .ok spot ∧ (spot.entry = none ∨ ∃ held, spot.entry = some (.file held)) ∧
      spot.location = loc ∧ d.put spot.location (.file .empty) = made := by
  rw [create, bind_eq_ok]
  refine exists_congr fun spot => and_congr_right fun _ => ?_
  rcases he : spot.entry with _ | (_ | held | target) <;> simp

theorem write_eq_ok : d.write p content = .ok new ↔
    ∃ place made, d.create p = .ok (place, made) ∧ made.fill place content = new := by
  rw [write, bind_eq_ok]
  constructor
  · rintro ⟨⟨place, made⟩, hc, hnew⟩
    exact ⟨place, made, hc, pure_eq_ok.mp hnew⟩
  · rintro ⟨place, made, hc, hnew⟩
    exact ⟨(place, made), hc, pure_eq_ok.mpr hnew⟩

variable {front : List PathPart} {n : String}

theorem write_changes (hr : Path.route p = ⟨front ++ [.name n], false⟩) (ho : Over old d)
    (hl : ∀ target, d.at? (old.place p) ≠ some (.link target)) (h : d.write p content = .ok new) :
    Changes d new [old.place p] ∧ Has old new p content := by
  obtain ⟨place, made, hcreate, hnew⟩ := write_eq_ok.mp h
  obtain ⟨spot, hf, hentry, rfl, rfl⟩ := create_eq_ok.mp hcreate
  obtain ⟨hloc, he, hname⟩ := find_make hr ho hf hl
  have hd : d.at? (old.place p) ≠ some .directory := by
    rw [← he]
    rcases hentry with hn | ⟨held, hn⟩ <;> simp [hn]
  rw [hloc, fill_put (isOuter_eq_false hd)] at hnew
  obtain ⟨hc, hat⟩ := put_changes hd (.file content)
  rw [hnew] at hc hat
  have hk : Keeps d new (old.approach p).links := hc.keeps fun l _ hm target => by
    rw [List.mem_singleton.mp hm]
    exact hl target
  refine ⟨hc, ?_⟩
  rw [Has, find_name_keep hr ho hname hk, hat]

theorem Has.remove (h : Has old d p content) :
    ∃ new, d.remove p = .ok new ∧ Changes d new [old.place p] ∧ new.at? (old.place p) = none := by
  have hd : d.at? (old.place p) ≠ some .directory := by simp [h.at?]
  obtain ⟨hc, hat⟩ := erase_changes hd
  exact ⟨_, bind_eq_ok.mpr ⟨_, h, rfl⟩, hc, hat⟩

/-- Without anything but a directory at its place, nothing is removed through a path. -/
theorem remove_of_empty (hr : Path.route p = ⟨front ++ [.name n], false⟩) (ho : Over old d)
    (he : d.at? (old.place p) = none ∨ d.at? (old.place p) = some .directory) :
    ∃ fault, d.remove p = .error fault := by
  cases hrm : d.remove p with
  | error fault => exact ⟨fault, rfl⟩
  | ok new =>
    obtain ⟨spot, hf, h⟩ := bind_eq_ok.mp hrm
    obtain rfl := find_name hr ho hf
    rcases he with he | he <;> simp [he] at h

/-- A file is only moved to a path that names no directory and has no slash behind it. -/
theorem Has.of_rename (h : Has old d q content) (hr : d.rename q p = .ok new) :
    ∃ spot, d.find .name p = .ok spot ∧ spot.named = true ∧ spot.slashed = false ∧
      spot.entry ≠ some .directory ∧ (spot.location ≠ old.place q →
        (d.put spot.location (.file content)).erase (old.place q) = new) := by
  obtain ⟨source, hf, hr⟩ := bind_eq_ok.mp hr
  obtain rfl := Except.ok.inj (hf.symm.trans h)
  obtain ⟨spot, hp, hr⟩ := bind_eq_ok.mp hr
  cases hn : spot.named with
  | false => simp [hn] at hr
  | true =>
    cases hs : spot.slashed with
    | true => simp [hn, hs] at hr
    | false =>
      have hd : spot.entry ≠ some .directory := by
        intro he
        simp [hn, hs, he] at hr
      refine ⟨spot, hp, hn, hs, hd, fun hne => ?_⟩
      rcases he : spot.entry with _ | (_ | c | target)
      · simpa [hn, hs, he, hne] using hr
      · exact absurd he hd
      · simpa [hn, hs, he, hne] using hr
      · simpa [hn, hs, he, hne] using hr

/-- A file that is moved over a path is what that path names, and it is gone from its old place. -/
theorem Has.rename (h : Has old d q content) (ho : Over old d) (hne : old.place p ≠ old.place q)
    (hl : old.place p ∉ (old.approach p).links) (hr : d.rename q p = .ok new) :
    Changes d new [old.place q, old.place p] ∧ new.at? (old.place q) = none ∧
      Has old new p content := by
  obtain ⟨spot, hf, hn, hs, hd, hnew⟩ := h.of_rename hr
  obtain ⟨front, n, hroute⟩ := route_of_find_name hf hn
  rw [hs] at hroute
  obtain rfl := find_name hroute ho hf
  have hq : d.at? (old.place q) = some (.file content) := h.at?
  obtain ⟨hput, hplace⟩ := put_changes hd (.file content)
  have hq' : (d.put (old.place p) (.file content)).at? (old.place q) = some (.file content) := by
    rw [at?_put _ _ _ _ (isOuter_eq_false hd), if_neg hne.symm, hq]
  have hfile : (d.put (old.place p) (.file content)).at? (old.place q) ≠ some .directory := by
    simp [hq']
  obtain ⟨herase, hgone⟩ := erase_changes hfile
  rw [hnew hne] at herase hgone
  have hat : new.at? (old.place p) = some (.file content) :=
    (herase.elsewhere (by simpa using hne)).at?_eq hplace
  have hc : Changes d new [old.place q, old.place p] :=
    (hput.mono (by simp)).trans (herase.mono (by simp))
  refine ⟨hc, hgone, ?_⟩
  have hk : Keeps d new (old.approach p).links := hc.keeps fun l hm hp target => by
    rcases List.mem_cons.mp hp with rfl | hp
    · simp [hq]
    · rw [List.mem_singleton.mp hp] at hm
      exact absurd hm hl
  rw [Has, find_name_keep hroute ho hf hk, hat]

end NavTree.Disk
