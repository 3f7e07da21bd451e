import NavTree.Proofs.Files.Change
import NavTree.Proofs.Project.Stagewise

/-! # Progress of an installation

How far an installation of several files has come, file by file, and what that says about the disk.
Each file operation of the installation takes one file to its next stage and leaves the others
where they are.
-/
namespace NavTree

variable {old d new : Disk} {files : List Rendered} {f g : Rendered} {s : Rendered → Status}

namespace Rendered

/-- The file was left alone, for it holds the text already, as far as digests tell. -/
def Skipped (old d : Disk) (f : Rendered) : Prop :=
  ∃ content, Digest.sha256 content = Digest.sha256 f.content.toUTF8 ∧ d.read f.path = .ok content ∧
    old.at? (old.course f.path).finish = some (.file content)

end Rendered

def Status.Stands (old d : Disk) (f : Rendered) : Status → Prop
  | untouched | aborted => True
  | skipped => f.Skipped old d
  | waiting => Disk.Has old d (temporaryPath f.path) f.content.toUTF8
  | installed => Disk.Has old d f.path f.content.toUTF8

/-- Files that do not get into each other's way: their places differ from each other and from those
of their temporaries, which are free, and no file is reached through a link at the place of
another. -/
structure Separate (old : Disk) (files : List Rendered) : Prop where
  apart : (files.map (Rendered.place old)).Nodup
  clear : ∀ f ∈ files, ∀ g ∈ files, f.place old ≠ g.waitingPlace old
  free : ∀ f ∈ files, old.at? (f.waitingPlace old) = none
  approach : ∀ f ∈ files, ∀ g ∈ files, g.place old ∉ (old.approach f.path).links
  course : ∀ f ∈ files, ∀ g ∈ files, f ≠ g → g.place old ∉ (old.course f.path).links ∧
    (old.course f.path).finish ≠ g.place old ∧ (old.course f.path).finish ≠ g.waitingPlace old

namespace Separate

theorem nodup (h : Separate old files) : files.Nodup := h.apart.of_map _

theorem place_ne (h : Separate old files) (hf : f ∈ files) (hg : g ∈ files) (hne : f ≠ g) :
    f.place old ≠ g.place old := fun he => hne (List.inj_on_of_nodup_map h.apart hf hg he)

theorem waitingPlace_ne (h : Separate old files) (hf : f ∈ files) (hg : g ∈ files) (hne : f ≠ g) :
    f.waitingPlace old ≠ g.waitingPlace old :=
  Disk.place_temporaryPath_ne (h.place_ne hf hg hne)

end Separate

/-- The disk is the old one but for the files that wait or are installed, and for directories that
were made where nothing was. -/
structure Progress (old : Disk) (files : List Rendered) (s : Rendered → Status) (d : Disk) :
    Prop where
  stands : ∀ f ∈ files, (s f).Stands old d f
  elsewhere : ∀ loc, (∀ f ∈ files, s f = .waiting → loc ≠ f.waitingPlace old) →
    (∀ f ∈ files, s f = .installed → loc ≠ f.place old) → Disk.Unmoved old d loc
  directory : ∀ loc, old.at? loc = some .directory → d.at? loc = some .directory

namespace Progress

theorem start (old : Disk) (files : List Rendered) :
    Progress old files (fun _ => .untouched) old :=
  ⟨fun _ _ => trivial, fun _ _ _ => .inl rfl, fun _ h => h⟩

theorem at?_waiting (h : Progress old files s d) (hf : f ∈ files) (hs : s f = .waiting) :
    d.at? (f.waitingPlace old) = some (.file f.content.toUTF8) := by
  have hst := h.stands f hf
  rw [hs] at hst
  exact Disk.Has.at? hst

theorem at?_installed (h : Progress old files s d) (hf : f ∈ files) (hs : s f = .installed) :
    d.at? (f.place old) = some (.file f.content.toUTF8) := by
  have hst := h.stands f hf
  rw [hs] at hst
  exact Disk.Has.at? hst

/-- What is no file stands where nothing was installed. -/
theorem unmoved (h : Progress old files s d) {loc : Location}
    (hn : ∀ content, d.at? loc ≠ some (.file content)) : Disk.Unmoved old d loc := by
  refine h.elsewhere loc ?_ ?_
  · rintro f hf hs rfl
    exact hn _ (h.at?_waiting hf hs)
  · rintro f hf hs rfl
    exact hn _ (h.at?_installed hf hs)

theorem over_old (h : Progress old files s d) : Disk.Over old d := by
  constructor
  · intro loc target he
    have hn : ∀ content, d.at? loc ≠ some (.file content) := by simp [he]
    rcases h.unmoved hn with hu | ⟨_, hd⟩
    · rw [← hu, he]
    · simp [hd] at he
  · intro loc he
    have hn : ∀ content, d.at? loc ≠ some (.file content) := by simp [he]
    rcases h.unmoved hn with hu | ⟨hn, _⟩
    · exact .inl (hu ▸ he)
    · exact .inr hn

theorem course_link (h : Progress old files s d) (hsep : Separate old files) (hf : f ∈ files)
    (hs : s f ≠ .installed) : ∀ l ∈ (old.course f.path).links, ∀ target,
      old.at? l = some (.link target) → d.at? l = some (.link target) := by
  intro l hl target he
  refine Disk.Unmoved.at?_eq (h.elsewhere l ?_ ?_) he
  · rintro g hg _ rfl
    simp [hsep.free g hg] at he
  · rintro g hg hsg rfl
    by_cases hfg : f = g
    · exact hs (hfg ▸ hsg)
    · exact (hsep.course f hf g hg hfg).1 hl

/-- Nothing but a directory stands where a text could wait and does not. -/
theorem waitingPlace_unmoved (h : Progress old files s d) (hsep : Separate old files)
    (hf : f ∈ files) (hs : s f ≠ .waiting) : Disk.Unmoved old d (f.waitingPlace old) := by
  refine h.elsewhere _ (fun g hg hsg => ?_) fun g hg _ => (hsep.clear g hg f hf).symm
  exact hsep.waitingPlace_ne hf hg fun hfg => hs (hfg ▸ hsg)

theorem place_unmoved (h : Progress old files s d) (hsep : Separate old files) (hf : f ∈ files)
    (hs : s f ≠ .installed) : Disk.Unmoved old d (f.place old) := by
  refine h.elsewhere _ (fun g hg _ => hsep.clear f hf g hg) fun g hg hsg => ?_
  exact hsep.place_ne hf hg fun hfg => hs (hfg ▸ hsg)

theorem finish_unmoved (h : Progress old files s d) (hsep : Separate old files) (hf : f ∈ files)
    (hw : s f ≠ .waiting) (hi : s f ≠ .installed) :
    Disk.Unmoved old d (old.course f.path).finish := by
  refine h.elsewhere _ (fun g hg hsg => ?_) fun g hg hsg => ?_
  · exact (hsep.course f hf g hg fun hfg => hw (hfg ▸ hsg)).2.2
  · exact (hsep.course f hf g hg fun hfg => hi (hfg ▸ hsg)).2.1

theorem at?_of_read (h : Progress old files s d) (hsep : Separate old files) (hf : f ∈ files)
    (hw : s f ≠ .waiting) (hi : s f ≠ .installed) {content : ByteArray}
    (hr : d.read f.path = .ok content) :
    old.at? (old.course f.path).finish = some (.file content) := by
  have hat := Disk.at?_of_read h.over_old hr (h.course_link hsep hf hi)
  rcases h.finish_unmoved hsep hf hw hi with hu | ⟨_, hd⟩
  · rw [← hu, hat]
  · simp [hd] at hat

/-- What was read of a file that is not touched yet is read of it still. -/
theorem readable (h : Progress old files s d) (hsep : Separate old files) (hf : f ∈ files)
    (hw : s f ≠ .waiting) (hi : s f ≠ .installed) {content : ByteArray}
    (hr : old.read f.path = .ok content) : d.read f.path = .ok content := by
  have hk : Disk.Keeps old d (old.course f.path).links :=
    ⟨fun hd => h.directory _ hd, fun hl => h.course_link hsep hf hi _ hl _⟩
  have hat := Disk.at?_of_read (.refl old) hr fun _ _ _ => id
  exact Disk.read_keep (.refl old) hr (fun _ _ _ => id) hk
    ((h.finish_unmoved hsep hf hw hi).at?_eq hat)

theorem waitingPlace_empty (h : Progress old files s d) (hsep : Separate old files) (hf : f ∈ files)
    (hs : s f ≠ .waiting) :
    d.at? (f.waitingPlace old) = none ∨ d.at? (f.waitingPlace old) = some .directory := by
  rcases h.waitingPlace_unmoved hsep hf hs with he | ⟨_, he⟩
  · exact .inl (he.trans (hsep.free f hf))
  · exact .inr he

theorem waitingPlace_not_link (h : Progress old files s d) (hsep : Separate old files)
    (hf : f ∈ files) (target : String) : d.at? (f.waitingPlace old) ≠ some (.link target) := by
  by_cases hs : s f = .waiting
  · simp [h.at?_waiting hf hs]
  · rcases h.waitingPlace_empty hsep hf hs with he | he <;> simp [he]

/-- Changes at some places do not concern a file. -/
structure Avoids (old d : Disk) (places : List Location) (g : Rendered) : Prop where
  place : g.place old ∉ places
  waitingPlace : g.waitingPlace old ∉ places
  finish : (old.course g.path).finish ∉ places
  link : ∀ l ∈ places, ∀ target, d.at? l = some (.link target) →
    l ∉ (old.approach g.path).links ∧ l ∉ (old.course g.path).links

theorem avoids (h : Progress old files s d) (hsep : Separate old files) (hf : f ∈ files)
    (hg : g ∈ files) (hne : g ≠ f) : Avoids old d [f.waitingPlace old, f.place old] g := by
  obtain ⟨hlinks, hplace, hwaiting⟩ := hsep.course g hg f hf hne
  refine ⟨?_, ?_, by simp [hplace, hwaiting], ?_⟩
  · simp [hsep.place_ne hg hf hne, hsep.clear g hg f hf]
  · simp [hsep.waitingPlace_ne hg hf hne, (hsep.clear f hf g hg).symm]
  · intro l hl target he
    rcases List.mem_cons.mp hl with rfl | hl
    · exact absurd he (h.waitingPlace_not_link hsep hf target)
    · rw [List.mem_singleton.mp hl]
      exact ⟨hsep.approach g hg f hf, hlinks⟩

theorem stands_keep {places : List Location} (h : Progress old files s d)
    (hsep : Separate old files) (hg : g ∈ files) (hc : Disk.Changes d new places)
    (ha : Avoids old d places g) : (s g).Stands old new g := by
  have hst := h.stands g hg
  have happroach : Disk.Keeps d new (old.approach g.path).links :=
    hc.keeps fun l hm hp target he => (ha.link l hp target he).1 hm
  cases hs : s g with
  | untouched | aborted => trivial
  | skipped =>
    rw [hs] at hst
    obtain ⟨content, hdigest, hread, hold⟩ := hst
    have hcourse := h.course_link hsep hg (by simp [hs])
    have hk : Disk.Keeps d new (old.course g.path).links :=
      hc.keeps fun l hm hp target he => (ha.link l hp target he).2 hm
    have hat : new.at? (old.course g.path).finish = some (.file content) :=
      (hc.elsewhere ha.finish).at?_eq (Disk.at?_of_read h.over_old hread hcourse)
    exact ⟨content, hdigest, Disk.read_keep h.over_old hread hcourse hk hat, hold⟩
  | waiting =>
    rw [hs] at hst
    have hk : Disk.Keeps d new (old.approach (temporaryPath g.path)).links := by
      rw [Disk.approach_temporaryPath]
      exact happroach
    exact Disk.Has.keep hst h.over_old hk ((hc.elsewhere ha.waitingPlace).at?_eq (h.at?_waiting hg hs))
  | installed =>
    rw [hs] at hst
    exact Disk.Has.keep hst h.over_old happroach ((hc.elsewhere ha.place).at?_eq (h.at?_installed hg hs))

theorem grow (h : Progress old files s d) (hsep : Separate old files)
    (hc : Disk.Changes d new []) : Progress old files s new := by
  refine ⟨fun g hg => ?_, fun loc hw hi => ?_, fun loc hd => hc.directory (h.directory loc hd)⟩
  · exact h.stands_keep hsep hg hc ⟨by simp, by simp, by simp, by simp⟩
  · exact (h.elsewhere loc hw hi).trans (hc.elsewhere (by simp))

/-- A change at the places of one file moves that file alone. -/
theorem move (h : Progress old files s d) (hsep : Separate old files) (hf : f ∈ files)
    (hc : Disk.Changes d new [f.waitingPlace old, f.place old]) {st : Status}
    (hst : st.Stands old new f) (hw : st = .waiting ∨ Disk.Unmoved old new (f.waitingPlace old))
    (hi : st = .installed ∨ Disk.Unmoved old new (f.place old)) :
    Progress old files (Function.update s f st) new := by
  refine ⟨fun g hg => ?_, fun loc hlw hli => ?_, fun loc hd => hc.directory (h.directory loc hd)⟩
  · by_cases hgf : g = f
    · subst hgf
      rwa [Function.update_self]
    · rw [Function.update_of_ne hgf]
      exact h.stands_keep hsep hg hc (h.avoids hsep hf hg hgf)
  · by_cases hlocw : loc = f.waitingPlace old
    · rcases hw with hw | hw
      · exact absurd hlocw (hlw f hf (by rw [Function.update_self, hw]))
      · exact hlocw ▸ hw
    by_cases hloci : loc = f.place old
    · rcases hi with hi | hi
      · exact absurd hloci (hli f hf (by rw [Function.update_self, hi]))
      · exact hloci ▸ hi
    refine Disk.Unmoved.trans (h.elsewhere loc ?_ ?_) (hc.elsewhere (by simp [hlocw, hloci]))
    · intro g hg hs
      by_cases hgf : g = f
      · exact hgf ▸ hlocw
      · exact hlw g hg (by rw [Function.update_of_ne hgf, hs])
    · intro g hg hs
      by_cases hgf : g = f
      · exact hgf ▸ hloci
      · exact hli g hg (by rw [Function.update_of_ne hgf, hs])

theorem skip (h : Progress old files s d) (hsep : Separate old files) (hf : f ∈ files)
    (hs : s f = .untouched) (hskip : f.Skipped old d) :
    Progress old files (Function.update s f .skipped) d :=
  h.move hsep hf (.refl d) hskip (.inr (h.waitingPlace_unmoved hsep hf (by simp [hs])))
    (.inr (h.place_unmoved hsep hf (by simp [hs])))

theorem wait (h : Progress old files s d) (hsep : Separate old files) (hf : f ∈ files)
    (hs : s f = .untouched)
    (hw : d.write (temporaryPath f.path) f.content.toUTF8 = .ok new) :
    Progress old files (Function.update s f .waiting) new := by
  obtain ⟨front, hr, _⟩ := Path.route_temporaryPath f.path
  obtain ⟨hc, hhas⟩ := Disk.write_changes hr h.over_old (h.waitingPlace_not_link hsep hf) hw
  have hout : f.place old ∉ [f.waitingPlace old] := by simp [hsep.clear f hf f hf]
  refine h.move hsep hf (hc.mono (by simp [Rendered.waitingPlace])) hhas (.inl rfl) (.inr ?_)
  exact (h.place_unmoved hsep hf (by simp [hs])).trans (hc.elsewhere hout)

/-- What there is of a text that fell short is discarded without a trace. -/
theorem discard_part (h : Progress old files s d) (hsep : Separate old files) (hf : f ∈ files)
    (hs : s f = .untouched) {part : ByteArray}
    (hw : d.write (temporaryPath f.path) part = .ok new) :
    Progress old files (Function.update s f .aborted)
      (attempted new (new.remove (temporaryPath f.path))).2 := by
  obtain ⟨front, hr, _⟩ := Path.route_temporaryPath f.path
  obtain ⟨hc, hhas⟩ := Disk.write_changes hr h.over_old (h.waitingPlace_not_link hsep hf) hw
  obtain ⟨last, hremove, hc', hat⟩ := Disk.Has.remove hhas
  have hout : f.place old ∉ [f.waitingPlace old] := by simp [hsep.clear f hf f hf]
  have hplace : Disk.Unmoved old last (f.place old) :=
    (h.place_unmoved hsep hf (by simp [hs])).trans ((hc.trans hc').elsewhere hout)
  rw [hremove]
  exact h.move hsep hf ((hc.trans hc').mono (by simp [Rendered.waitingPlace])) trivial
    (.inr (.inl (hat.trans (hsep.free f hf).symm))) (.inr hplace)

/-- A waiting text is discarded without a trace. -/
theorem discard (h : Progress old files s d) (hsep : Separate old files) (hf : f ∈ files)
    (hs : s f = .waiting) :
    Progress old files (Function.update s f .aborted)
      (attempted d (d.remove (temporaryPath f.path))).2 := by
  have hhas := h.stands f hf
  rw [hs] at hhas
  obtain ⟨new, hr, hc, hat⟩ := Disk.Has.remove hhas
  have hout : f.place old ∉ [f.waitingPlace old] := by simp [hsep.clear f hf f hf]
  rw [hr]
  refine h.move hsep hf (hc.mono (by simp [Rendered.waitingPlace])) trivial (.inr (.inl ?_))
    (.inr ((h.place_unmoved hsep hf (by simp [hs])).trans (hc.elsewhere hout)))
  exact hat.trans (hsep.free f hf).symm

theorem install (h : Progress old files s d) (hsep : Separate old files) (hf : f ∈ files)
    (hs : s f = .waiting) (hr : d.rename (temporaryPath f.path) f.path = .ok new) :
    Progress old files (Function.update s f .installed) new := by
  have hhas := h.stands f hf
  rw [hs] at hhas
  obtain ⟨hc, hat, hnew⟩ := Disk.Has.rename hhas h.over_old (hsep.clear f hf f hf)
    (hsep.approach f hf f hf) hr
  exact h.move hsep hf hc hnew (.inr (.inl (hat.trans (hsep.free f hf).symm))) (.inl rfl)

/-- A file of which nothing has happened may be given up. -/
theorem giveUp (h : Progress old files s d) (hsep : Separate old files) (hf : f ∈ files)
    (hs : s f = .untouched) : Progress old files (Function.update s f .aborted) d :=
  h.move hsep hf (.refl d) trivial (.inr (h.waitingPlace_unmoved hsep hf (by simp [hs])))
    (.inr (h.place_unmoved hsep hf (by simp [hs])))

theorem discard_nothing (h : Progress old files s d) (hsep : Separate old files) (hf : f ∈ files)
    (hs : s f ≠ .waiting) : (attempted d (d.remove (temporaryPath f.path))).2 = d := by
  obtain ⟨front, hr, _⟩ := Path.route_temporaryPath f.path
  obtain ⟨fault, he⟩ := Disk.remove_of_empty hr h.over_old (h.waitingPlace_empty hsep hf hs)
  rw [he]
  rfl

end Progress

end NavTree
