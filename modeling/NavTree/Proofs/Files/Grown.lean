import NavTree.Proofs.Files.Edit

/-! # Growing and narrowing disks

Making directories and writing files grows a disk: what leads somewhere still does. Taking away and
moving files narrows it, unless a link is moved; a link that leads to a file leads into no directory
wherever it stands in its own directory, so moving it opens no way either.
-/
namespace NavTree.Disk

/-- Parts that a file is behind, links at their end followed. -/
inductive LeadsToFile (d : Disk) : Location → List PathPart → Prop
  | file {b loc front b' loc' links n content} (h : d.Leads b loc front b' loc' links)
    (hf : d.at? (n :: loc') = some (.file content)) : LeadsToFile d loc (front ++ [.name n])
  | link {b loc front b' loc' links n target} (h : d.Leads b loc front b' loc' links)
    (hl : d.at? (n :: loc') = some (.link target))
    (h' : LeadsToFile d loc' (Path.route target).parts) : LeadsToFile d loc (front ++ [.name n])

/-- Parts lead from a directory into no directory. -/
def Barred (d : Disk) (loc : Location) (parts : List PathPart) : Prop :=
  ∀ b b' loc' links, ¬ d.Leads b loc parts b' loc' links

variable {old d new last : Disk} {b b' c c' : Nat} {loc loc' loc'' : Location}
  {parts front tail : List PathPart} {links links' places : List Location} {purpose : Purpose}
  {slashed : Bool} {spot : Spot} {content : ByteArray} {p n : String}

/-- Where parts lead does not depend on how many links may be passed. -/
theorem Leads.unique (h : d.Leads b loc parts b' loc' links)
    (h' : d.Leads c loc parts c' loc'' links') : loc' = loc'' := by
  induction h generalizing c links' with
  | done =>
    cases h'
    rfl
  | root _ ih =>
    cases h' with
    | root h' => exact ih h'
  | here _ ih =>
    cases h' with
    | here h' => exact ih h'
  | up _ ih =>
    cases h' with
    | up h' => exact ih h'
  | enter _ hd _ ih =>
    cases h' with
    | enter _ _ h' => exact ih h'
    | jump _ hl _ => simp [hd] at hl
  | jump _ hl _ ih =>
    cases h' with
    | enter _ hd _ => simp [hl] at hd
    | jump _ hl' h' =>
      obtain rfl := Entry.link.inj (Option.some.inj (hl.symm.trans hl'))
      exact ih h'

theorem Leads.split {b : Nat} {loc : Location} {front : List PathPart} {links : List Location}
    (h : d.Leads b loc (front ++ tail) b' loc' links) :
    ∃ c mid l l', d.Leads b loc front c mid l ∧ d.Leads c mid tail b' loc' l' := by
  -- A link puts its parts in front, but then fewer links may be passed.
  match front, h with
  | [], h => exact ⟨_, _, _, _, .done, h⟩
  | .root :: front, .root h =>
    obtain ⟨c, mid, l, l', hf, ht⟩ := h.split
    exact ⟨c, mid, l, l', .root hf, ht⟩
  | .here :: front, .here h =>
    obtain ⟨c, mid, l, l', hf, ht⟩ := h.split
    exact ⟨c, mid, l, l', .here hf, ht⟩
  | .up :: front, .up h =>
    obtain ⟨c, mid, l, l', hf, ht⟩ := h.split
    exact ⟨c, mid, l, l', .up hf, ht⟩
  | .name _ :: front, .enter hs hd h =>
    obtain ⟨c, mid, l, l', hf, ht⟩ := h.split
    exact ⟨c, mid, l, l', .enter hs hd hf, ht⟩
  | .name _ :: front, @Leads.jump _ _ _ _ target _ _ _ _ hs hl h =>
    have happend := List.append_assoc (Path.route target).parts front tail
    obtain ⟨c, mid, l, l', hf, ht⟩ := (happend ▸ h).split
    exact ⟨c, mid, _, l', .jump hs hl hf, ht⟩
termination_by (b, front.length)

theorem LeadsToFile.barred (h : d.LeadsToFile loc parts) : d.Barred loc parts := by
  induction h with
  | file h hf =>
    intro c c' loc'' links' hleads
    obtain ⟨_, mid, _, _, hfront, hlast⟩ := hleads.split
    obtain rfl := h.unique hfront
    cases hlast with
    | enter _ hd _ => simp [hf] at hd
    | jump _ hl _ => simp [hf] at hl
  | link h hl _ ih =>
    intro c c' loc'' links' hleads
    obtain ⟨_, mid, _, _, hfront, hlast⟩ := hleads.split
    obtain rfl := h.unique hfront
    cases hlast with
    | enter _ hd _ => simp [hl] at hd
    | jump _ hl' hlast =>
      obtain rfl := Entry.link.inj (Option.some.inj (hl.symm.trans hl'))
      rw [List.append_nil] at hlast
      exact ih _ _ _ _ hlast

/-- Nothing is taken away or made a link, files are written at some places only, and directories
are made where nothing was. -/
structure Grows (d new : Disk) (places : List Location) : Prop where
  elsewhere : ∀ {l}, l ∉ places → Unmoved d new l
  directory : ∀ {l}, d.at? l = some .directory → new.at? l = some .directory
  made : ∀ {l}, new.at? l = some .directory → d.at? l = some .directory ∨ d.at? l = none
  link : ∀ {l target}, new.at? l = some (.link target) ↔ d.at? l = some (.link target)
  file : ∀ {l content}, d.at? l = some (.file content) → ∃ content', new.at? l = some (.file content')

namespace Grows

theorem refl (d : Disk) (places : List Location) : Grows d d places :=
  ⟨fun _ => .inl rfl, id, .inl, Iff.rfl, fun h => ⟨_, h⟩⟩

theorem trans (h : Grows d new places) (h' : Grows new last places) : Grows d last places where
  elsewhere hl := (h.elsewhere hl).trans (h'.elsewhere hl)
  directory hl := h'.directory (h.directory hl)
  made {l} hl := by
    rcases h'.made hl with hl | hl
    · exact h.made hl
    · cases hd : d.at? l with
      | none => exact .inr rfl
      | some e =>
        cases e with
        | directory => exact .inl rfl
        | link target => simp [h.link.mpr hd] at hl
        | file content =>
          obtain ⟨content', hf⟩ := h.file hd
          simp [hf] at hl
  link := h'.link.trans h.link
  file hl := by
    obtain ⟨content', hf⟩ := h.file hl
    exact h'.file hf

theorem mono {places' : List Location} (h : Grows d new places) (hs : places ⊆ places') :
    Grows d new places' :=
  { h with elsewhere := fun hl => h.elsewhere fun hm => hl (hs hm) }

theorem toOver (h : Grows d new places) : Over d new := ⟨h.link.mp, h.made⟩

theorem keeps (h : Grows d new places) (links : List Location) : Keeps d new links :=
  ⟨h.directory, fun _ => h.link.mpr⟩

theorem leadsToFile (h : Grows d new places) (hf : d.LeadsToFile loc parts) :
    new.LeadsToFile loc parts := by
  induction hf with
  | file hl hf =>
    obtain ⟨content', hf⟩ := h.file hf
    exact .file (hl.mono (h.keeps _)) hf
  | link hl hlink _ ih => exact .link (hl.mono (h.keeps _)) (h.link.mpr hlink) ih

/-- Where nothing but directories is made, a disk grows. -/
theorem of_unmoved (h : ∀ l, Unmoved d new l) : Grows d new [] where
  elsewhere _ := h _
  directory hl := (h _).at?_eq hl
  made {l} hl := by
    rcases h l with he | ⟨hn, _⟩
    · exact .inl (he ▸ hl)
    · exact .inr hn
  link {l target} := by
    rcases h l with he | ⟨hn, hd⟩
    · rw [he]
    · simp [hn, hd]
  file hl := ⟨_, (h _).at?_eq hl⟩

theorem makeDirectories (d : Disk) (p : String) : Grows d (d.makeDirectories p).2 [] :=
  of_unmoved fun _ => (makeDirectories_changes d p).elsewhere (by simp)

theorem put (h : d.at? loc = none ∨ ∃ held, d.at? loc = some (.file held)) (content : ByteArray) :
    Grows d (d.put loc (.file content)) [loc] := by
  have hd : d.at? loc ≠ some .directory := by
    rcases h with h | ⟨held, h⟩ <;> simp [h]
  have hnl : ∀ target, d.at? loc ≠ some (.link target) := by
    rcases h with h | ⟨held, h⟩ <;> simp [h]
  have hat := fun l => at?_put d loc l (.file content) (isOuter_eq_false hd)
  have hother : ∀ {l}, l ≠ loc → (d.put loc (.file content)).at? l = d.at? l :=
    fun {l} hl => (hat l).trans (if_neg hl)
  have hself : (d.put loc (.file content)).at? loc = some (.file content) :=
    (hat loc).trans (if_pos rfl)
  refine ⟨fun {l} hl => .inl (hother (by simpa using hl)), fun {l} hl => ?_, fun {l} hl => ?_,
    fun {l target} => ?_, fun {l held} hl => ?_⟩
  · rwa [hother fun he => hd (he ▸ hl)]
  · by_cases he : l = loc
    · simp [he, hself] at hl
    · exact .inl (hother he ▸ hl)
  · by_cases he : l = loc
    · simp [he, hself, hnl target]
    · rw [hother he]
  · by_cases he : l = loc
    · exact ⟨content, he ▸ hself⟩
    · exact ⟨held, (hother he).trans hl⟩

end Grows

/-- Unless the name itself is wanted, a lookup follows a link at the end. -/
theorem resolve_of_endAt_link {jump : Location → Path.Route → Except FileFault Spot}
    {target : String} (hp : purpose ≠ .name) (hl : d.at? (n :: loc) = some (.link target))
    (h : d.endAt purpose slashed jump loc n = .ok spot) :
    ∃ slashed', jump loc ⟨(Path.route target).parts, slashed'⟩ = .ok spot := by
  unfold endAt at h
  rw [if_neg hp] at h
  split at h
  · cases h
  · simp only [hl] at h
    exact ⟨_, h⟩

/-- What is found, other than a directory, stands where the way of the parts ends. -/
theorem resolve_location (hg : Grows old d places) (hp : purpose ≠ .name)
    (h : d.resolve purpose (b + 1) loc ⟨parts, slashed⟩ = .ok spot)
    (hs : spot.entry ≠ some .directory) :
    spot.location = (old.way (b + 1) loc (parts.filter (· ≠ .here))).finish := by
  induction b using Nat.strong_induction_on generalizing loc parts slashed with
  | _ b ih =>
    obtain ⟨front, n, rfl⟩ := exists_last h (.inl hs)
    obtain ⟨b', loc', links, hl, -, ht⟩ := Leads.of_resolve_named h
    rw [Path.filter_append_name, hl.way_eq hg.toOver [.name n]]
    by_cases hlink : ∃ target, d.at? (n :: loc') = some (.link target)
    · obtain ⟨target, he⟩ := hlink
      rw [way_of_link (hg.link.mp he)]
      obtain ⟨slashed', ht⟩ := resolve_of_endAt_link hp he ht
      cases b' with
      | zero => cases ht
      | succ b₁ => exact ih b₁ hl.le ht
    · have hnot : ∀ target, d.at? (n :: loc') ≠ some (.link target) :=
        fun target he => hlink ⟨target, he⟩
      rw [way_of_not_link fun target he => hnot target (hg.link.mpr he)]
      rcases endAt_cases ht with ⟨hloc, _⟩ | ⟨target, he, _⟩
      · exact hloc
      · exact absurd he (hnot target)

/-- Behind the parts by which a file was written there is a file. -/
theorem leadsToFile_of_put (h : d.resolve .make (b + 1) loc ⟨parts, slashed⟩ = .ok spot)
    (hs : spot.entry = none ∨ ∃ held, spot.entry = some (.file held)) (content : ByteArray) :
    (d.put spot.location (.file content)).LeadsToFile loc parts := by
  have hd : spot.entry ≠ some .directory := by
    rcases hs with hs | ⟨held, hs⟩ <;> simp [hs]
  have hat : d.at? spot.location = spot.entry := (resolve_sights h hd).2
  have hgrows := Grows.put (hat ▸ hs) content
  have hfile : (d.put spot.location (.file content)).at? spot.location = some (.file content) := by
    rw [at?_put _ _ _ _ (isOuter_eq_false (hat ▸ hd)), if_pos rfl]
  induction b using Nat.strong_induction_on generalizing loc parts slashed with
  | _ b ih =>
    obtain ⟨front, n, rfl⟩ := exists_last h (.inl hd)
    obtain ⟨b', loc', links, hl, -, ht⟩ := Leads.of_resolve_named h
    have hfront := hl.mono (hgrows.keeps links)
    rcases endAt_cases ht with ⟨hloc, _⟩ | ⟨target, he, slashed', hj⟩
    · exact .file hfront (by rw [← hloc, hfile])
    · cases b' with
      | zero => cases hj
      | succ b₁ => exact .link hfront (hgrows.link.mpr he) (ih b₁ hl.le hj)

/-- On the way to something that is there, everything that is looked at is there. -/
theorem present_of_sights (h : d.resolve .visit b loc ⟨parts, slashed⟩ = .ok spot)
    (hs : spot.entry ≠ none) : ∀ l ∈ d.sights b loc parts, d.at? l ≠ none := by
  induction b generalizing loc parts slashed with
  | zero => cases h
  | succ b ihb =>
    induction parts generalizing loc with
    | nil => simp [sights, scan]
    | cons part rest ih =>
      cases part with
      | root => exact ih h
      | here => exact ih h
      | up => exact ih h
      | name s =>
        rw [sights_name, List.forall_mem_cons]
        by_cases hr : rest = []
        · subst hr
          rw [resolve_last] at h
          split at h
          · cases h
          cases hd : d.at? (s :: loc) with
          | none =>
            rcases endAt_cases h with ⟨_, he⟩ | ⟨target, he, _⟩
            · exact absurd (he.trans hd) hs
            · simp [hd] at he
          | some e =>
            cases e with
            | directory => simp [sights, scan]
            | file content => simp
            | link target =>
              obtain ⟨slashed', ht⟩ := resolve_of_endAt_link (by simp) hd h
              simpa using ihb ht
        · rw [resolve_name hr] at h
          split at h
          · cases h
          cases he : d.at? (s :: loc) with
          | none => simp [he] at h
          | some e =>
            simp only [he] at h
            cases e with
            | file content => cases h
            | directory => exact ⟨by simp, ih h⟩
            | link target => exact ⟨by simp, ihb h⟩

/-- A file is read as before if nothing moves where one looks. -/
theorem read_of_unmoved (h : d.read p = .ok content) (hu : ∀ l ∈ d.looks p, Unmoved d new l) :
    new.read p = .ok content := by
  obtain ⟨spot, hf, hs⟩ := read_eq_ok.mp h
  have hpresent := present_of_sights (find_eq_ok.mp hf).2 (by simp [hs])
  have halike : Alike d new p := alike_of_looks fun l hl => by
    obtain ⟨e, he⟩ := Option.ne_none_iff_exists'.mp (hpresent l hl)
    rw [(hu l hl).at?_eq he, he]
  rw [halike.read, h]

/-- Whatever leads somewhere did so before. -/
structure Narrows (d new : Disk) : Prop where
  leads : ∀ {b loc parts b' loc' links},
    new.Leads b loc parts b' loc' links → d.Leads b loc parts b' loc' links

/-- No directory stands at a place, and no link through which anything led from around it. -/
structure Shut (d new : Disk) (l : Location) : Prop where
  not_directory : new.at? l ≠ some .directory
  barred : ∀ {target}, new.at? l = some (.link target) → d.Barred l.tail (Path.route target).parts

theorem narrows_of_shut (h : ∀ l, new.at? l = d.at? l ∨ Shut d new l) : Narrows d new := by
  refine ⟨fun {b loc parts b' loc' links} hleads => ?_⟩
  induction hleads with
  | done => exact .done
  | root _ ih => exact .root ih
  | here _ ih => exact .here ih
  | up _ ih => exact .up ih
  | @enter b loc s rest b' loc' links hs hd _ ih =>
    rcases h (s :: loc) with he | he
    · exact .enter hs (he ▸ hd) ih
    · exact absurd hd he.not_directory
  | @jump b loc s target rest b' loc' links hs hl _ ih =>
    rcases h (s :: loc) with he | he
    · exact .jump hs (he ▸ hl) ih
    · obtain ⟨_, _, _, _, hfront, _⟩ := ih.split
      exact absurd hfront (he.barred hl _ _ _ _)

theorem Narrows.trans (h : Narrows d new) (h' : Narrows new last) : Narrows d last :=
  ⟨fun hleads => h.leads (h'.leads hleads)⟩

theorem Barred.narrows (h : d.Barred loc parts) (hn : Narrows d new) : new.Barred loc parts :=
  fun _ _ _ _ hleads => h _ _ _ _ (hn.leads hleads)

/-- On a narrowed disk a path is found by name at the place that was read off before. -/
theorem Narrows.find_name (hn : Narrows d new) (ho : Over old d)
    (hr : Path.route p = ⟨front ++ [.name n], slashed⟩) (h : new.find .name p = .ok spot) :
    spot = ⟨old.place p, new.at? (old.place p), true, slashed⟩ := by
  obtain ⟨b, loc, links, hl, _, he⟩ := leads_of_find hr h
  have hp : old.place p = n :: loc := congrArg Way.finish (approach_of_leads hr ho (hn.leads hl))
  cases he
  rw [hp]

end NavTree.Disk
