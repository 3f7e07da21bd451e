import NavTree.Proofs.Files.Departure
import NavTree.Proofs.Files.Change

/-! # Files that a disk gains

Files that are made only where nothing or a link stood. What was read before is then read as before,
and a file that a path comes to was found by it before, unless the way leaves a place that was
missing.
-/
namespace NavTree.Disk

variable {old d base new last : Disk} {b b' : Nat} {loc loc' : Location} {front : List PathPart}
  {links : List Location} {spot : Spot} {content : ByteArray} {p n : String} {e : Entry}
  {made made' : List (Location × ByteArray)}

theorem Leads.at?_finish (h : d.Leads b loc front b' loc' links) (htree : d.IsTree)
    (hd : d.at? loc = some .directory) : d.at? loc' = some .directory := by
  induction h with
  | done => exact hd
  | root _ ih => exact ih rfl
  | here _ ih => exact ih hd
  | up _ ih => exact ih (at?_outward htree hd)
  | enter _ hin _ ih => exact ih hin
  | jump _ _ _ ih => exact ih hd

/-- What is put into a directory, other than over one, stands in a directory. -/
theorem IsTree.update (h : d.IsTree) (hd : d.at? loc = some .directory)
    (hn : d.at? (n :: loc) ≠ some .directory)
    (hnew : ∀ l, new.at? l = if l = n :: loc then some e else d.at? l) : new.IsTree := by
  have hkeep : ∀ {l}, d.at? l = some .directory → new.at? l = some .directory := by
    intro l hl
    rw [hnew, if_neg (by rintro rfl; exact hn hl), hl]
  intro m l hl
  by_cases hm : m :: l = n :: loc
  · obtain ⟨-, rfl⟩ := List.cons.inj hm
    exact hkeep hd
  · rw [hnew, if_neg hm] at hl
    exact hkeep (h hl)

theorem isTree_congr (h : ∀ l, new.at? l = d.at? l) (htree : d.IsTree) : new.IsTree := by
  intro m l hl
  rw [h] at hl ⊢
  exact htree hl

/-- What is found by name stands in a directory, unless it is one. -/
theorem exists_around (htree : d.IsTree) (h : d.find .name p = .ok spot)
    (he : spot.entry ≠ some .directory) :
    ∃ n loc, spot.location = n :: loc ∧ d.at? loc = some .directory := by
  obtain ⟨front, n, slashed, hr⟩ := route_of_find h (.inl he)
  obtain ⟨b, loc, links, hl, -, hend⟩ := leads_of_find hr h
  cases hend
  exact ⟨n, loc, rfl, hl.at?_finish htree rfl⟩

theorem isTree_of_makeDirectory (htree : d.IsTree) (h : d.makeDirectory p = .ok new) :
    new.IsTree := by
  obtain ⟨spot, hf, h⟩ := bind_eq_ok.mp h
  cases he : spot.entry with
  | some e => simp [he] at h
  | none =>
    simp only [he, pure_eq_ok] at h
    subst h
    obtain ⟨n, loc, hloc, hd⟩ := exists_around htree hf (by simp [he])
    have hat : d.at? spot.location ≠ some .directory := by
      simp [at?_of_find_name hf, he]
    rw [hloc] at hat ⊢
    apply htree.update hd hat
    exact fun l => at?_put d _ l .directory (isOuter_eq_false hat)

theorem isTree_makeNested (htree : d.IsTree) (paths : List String) :
    (d.makeNested paths).2.IsTree := by
  induction paths generalizing d with
  | nil => exact htree
  | cons path around ih =>
    have hin : (d.makeNested around).2.IsTree := @ih d htree
    rw [makeNested]
    split
    · next made h => exact @isTree_of_makeDirectory d made path htree h
    · split
      · next fault d' h =>
        rw [h] at hin
        exact @hin
      · next d' h =>
        rw [h] at hin
        split
        · next made h' => exact @isTree_of_makeDirectory d' made path hin h'
        · exact @hin
    · exact @htree

theorem isTree_makeDirectories (htree : d.IsTree) (p : String) :
    (d.makeDirectories p).2.IsTree := @isTree_makeNested d htree _

/-- No file and no directory stands at a location. -/
def Vacant (d : Disk) (l : Location) : Prop :=
  d.at? l = none ∨ ∃ target, d.at? l = some (.link target)

theorem Vacant.not_file (h : d.Vacant loc) : d.at? loc ≠ some (.file content) := by
  rcases h with h | ⟨target, h⟩ <;> simp [h]

theorem Vacant.not_directory (h : d.Vacant loc) : d.at? loc ≠ some .directory := by
  rcases h with h | ⟨target, h⟩ <;> simp [h]

theorem vacant_of_ne (hd : d.at? loc ≠ some .directory)
    (hf : ∀ content, d.at? loc ≠ some (.file content)) : d.Vacant loc := by
  rcases he : d.at? loc with _ | (_ | content | target)
  · exact .inl he
  · exact absurd he hd
  · exact absurd he (hf content)
  · exact .inr ⟨target, he⟩

/-- Files are made at some vacant places, directories where nothing was, and nothing else moves. -/
def Gains (d new : Disk) (made : List (Location × ByteArray)) : Prop :=
  ∀ l, Unmoved d new l ∨
    d.Vacant l ∧ ∃ content, (l, content) ∈ made ∧ new.at? l = some (.file content)

namespace Gains

theorem of_unmoved (h : ∀ l, Unmoved d new l) (made : List (Location × ByteArray)) :
    Gains d new made := fun l => .inl (h l)

theorem refl (d : Disk) (made : List (Location × ByteArray)) : Gains d d made :=
  of_unmoved (fun _ => .inl rfl) made

theorem mono (h : Gains d new made) (hs : made ⊆ made') : Gains d new made' :=
  fun l => (h l).imp_right fun ⟨hv, content, hm, hf⟩ => ⟨hv, content, hs hm, hf⟩

theorem file (h : Gains d new made) (hf : d.at? loc = some (.file content)) :
    new.at? loc = some (.file content) := by
  rcases h loc with hu | ⟨hv, -⟩
  · exact hu.at?_eq hf
  · exact absurd hf hv.not_file

theorem directory (h : Gains d new made) (hd : d.at? loc = some .directory) :
    new.at? loc = some .directory := by
  rcases h loc with hu | ⟨hv, -⟩
  · exact hu.at?_eq hd
  · exact absurd hd hv.not_directory

theorem missing (h : Gains d new made) (hn : new.at? loc = none) : d.at? loc = none := by
  rcases h loc with (he | ⟨hnone, -⟩) | ⟨-, content, -, hf⟩
  · rw [← he, hn]
  · exact hnone
  · simp [hn] at hf

theorem toOver (h : Gains d new made) : Over d new := by
  constructor
  · intro loc target hl
    rcases h loc with (he | ⟨-, hd⟩) | ⟨-, content, -, hf⟩
    · exact he ▸ hl
    · simp [hd] at hl
    · simp [hf] at hl
  · intro loc hd
    rcases h loc with (he | ⟨hn, -⟩) | ⟨-, content, -, hf⟩
    · exact .inl (he ▸ hd)
    · exact .inr hn
    · simp [hf] at hd

theorem vacant (h : Gains d new made) (hv : new.Vacant loc) : d.Vacant loc := by
  rcases hv with hn | ⟨target, hl⟩
  · exact .inl (h.missing hn)
  · exact .inr ⟨target, h.toOver.link hl⟩

theorem trans (h : Gains d new made) (h' : Gains new last made') :
    Gains d last (made ++ made') := by
  intro l
  rcases h' l with hu' | ⟨hv, content, hm, hf⟩
  · rcases h l with hu | ⟨hv, content, hm, hf⟩
    · exact .inl (hu.trans hu')
    · exact .inr ⟨hv, content, List.mem_append_left _ hm, hu'.at?_eq hf⟩
  · exact .inr ⟨h.vacant hv, content, List.mem_append_right _ hm, hf⟩

theorem unmoved (h : Gains d base made) (hu : ∀ l, Unmoved base new l) : Gains d new made :=
  (h.trans (of_unmoved hu [])).mono (by simp)

/-- What is gained remains gained when a file is written, once more or at another place. -/
theorem write (h : Gains d base made) (hv : d.Vacant loc)
    (hnew : ∀ l, new.at? l = if l = loc then some (.file content) else base.at? l) :
    Gains d new (made ++ [(loc, content)]) := by
  intro l
  by_cases hl : l = loc
  · subst hl
    exact .inr ⟨hv, content, by simp, by rw [hnew, if_pos rfl]⟩
  have he : new.at? l = base.at? l := by rw [hnew, if_neg hl]
  rcases h l with hu | ⟨hvl, content', hm, hf⟩
  · rw [Unmoved] at hu ⊢
    rw [he]
    exact .inl hu
  · exact .inr ⟨hvl, content', List.mem_append_left _ hm, he.trans hf⟩

end Gains

/-- The places that the way to the place of a path leaves for somewhere that is not inside them. -/
def exits (d : Disk) (p : String) : List Location :=
  d.departures (linkBudget + 1) [] (Path.around p)

/-- From a place that was missing one does not get to one that was there without leaving. -/
theorem Leads.not_from_missing (h : new.Leads b loc front b' loc' links) (htree : d.IsTree)
    (ho : Over old new) (ho' : Over d new) (hloc : d.at? loc = none) (hend : d.at? loc' ≠ none)
    (hleft : ∀ l ∈ old.departures (b + 1) loc (front.filter (· ≠ .here)), d.at? l ≠ none) :
    False := by
  induction h with
  | done => exact hend hloc
  | root _ _ => exact hleft _ List.mem_cons_self hloc
  | here _ ih => exact ih hloc hend hleft
  | up _ _ => exact hleft _ List.mem_cons_self hloc
  | @enter b loc s rest _ _ _ _ hd _ ih =>
    have hnl : ∀ target, old.at? (s :: loc) ≠ some (.link target) := by
      intro target hl
      rcases ho.directory hd with hold | hold <;> simp [hold] at hl
    rw [List.filter_cons_of_pos (by simp), (way_name _ hnl).2] at hleft
    exact ih (htree.none_of_missing hloc s) hend hleft
  | @jump b loc s _ _ _ _ _ _ hl _ _ =>
    exact absurd (ho'.link hl) (by simp [htree.none_of_missing hloc s])

/-- Parts that lead to something that was there led to it before. -/
theorem Leads.before (h : new.Leads b loc front b' loc' links) (htree : d.IsTree)
    (ho : Over old new) (ho' : Over d new) (hloc : d.at? loc = some .directory)
    (hend : d.at? loc' ≠ none)
    (hleft : ∀ l ∈ old.departures (b + 1) loc (front.filter (· ≠ .here)), d.at? l ≠ none) :
    d.Leads b loc front b' loc' links := by
  induction h with
  | done => exact .done
  | root _ ih => exact .root (ih rfl hend fun l hl => hleft l (List.mem_cons_of_mem _ hl))
  | here _ ih => exact .here (ih hloc hend hleft)
  | up _ ih =>
    exact .up (ih (at?_outward htree hloc) hend fun l hl => hleft l (List.mem_cons_of_mem _ hl))
  | @enter b loc s rest _ _ _ hs hd h ih =>
    have hnl : ∀ target, old.at? (s :: loc) ≠ some (.link target) := by
      intro target hl
      rcases ho.directory hd with hold | hold <;> simp [hold] at hl
    rw [List.filter_cons_of_pos (by simp), (way_name _ hnl).2] at hleft
    rcases ho'.directory hd with hin | hin
    · exact .enter hs hin (ih hin hend hleft)
    -- A directory that is new holds nothing that was there, and the way does not leave it.
    · exact (h.not_from_missing htree ho ho' hin hend hleft).elim
  | @jump b loc s target rest _ _ _ hs hl h ih =>
    rw [List.filter_cons_of_pos (by simp), (way_name_link _ (ho.link hl)).2, Path.steps,
      ← List.filter_append] at hleft
    exact .jump hs (ho'.link hl) (ih hloc hend hleft)

/-- A file that is what a path names later was read before. -/
theorem read_of_found (htree : d.IsTree) (ho : Over old new) (ho' : Over d new)
    {entry : Option Entry} (hf : new.find .name p = .ok ⟨old.place p, entry, true, false⟩)
    (hat : d.at? (old.place p) = some (.file content))
    (hleft : ∀ l ∈ old.exits p, d.at? l ≠ none) : d.read p = .ok content := by
  obtain ⟨front, n, hr⟩ := route_of_find_name hf rfl
  obtain ⟨b, loc, links, hl, hn, -⟩ := leads_of_find hr hf
  have hplace : old.place p = n :: loc := congrArg Way.finish (approach_of_leads hr ho hl)
  rw [hplace] at hat
  have hthere : d.at? (n :: loc) ≠ none := by simp [hat]
  have hdir : d.at? loc = some .directory := htree hthere
  rw [exits, ← (Path.route_named (congrArg Path.Route.parts hr)).2] at hleft
  have hbefore := hl.before htree ho ho' rfl (by simp [hdir]) hleft
  have hnl : ∀ target, d.at? (n :: loc) ≠ some (.link target) := by simp [hat]
  have hfind : d.find .visit p = .ok ⟨n :: loc, d.at? (n :: loc), true, false⟩ := by
    rw [find_of_leads hr (find_eq_ok.mp hf).1 hbefore hn, endAt_of_not_link hnl]
  exact read_eq_ok.mpr ⟨_, hfind, hat⟩

theorem isPresent_of_read (h : d.read p = .ok content) : d.isPresent p = true := by
  obtain ⟨spot, hf, hs⟩ := read_eq_ok.mp h
  rw [isPresent, hf]
  simp [hs]

end NavTree.Disk
