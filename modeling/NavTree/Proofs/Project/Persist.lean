import NavTree.Proofs.Project.Progress

/-! # Failed installations

Files that are installed together are all staged before the first one is committed. An installation
that fails leaves a prefix of them installed, nothing else changed and no text waiting.
-/
namespace NavTree

variable {old d new : Disk} {files : List Rendered} {f : Rendered} {s : Rendered → Status}
  (station : Station)

namespace Job

theorem parentEnds_progress (hsep : Separate old files) (h : Progress old files s d)
    (path : String) : Progress old files s (parentEnds d path).2 := by
  unfold parentEnds
  split
  · exact h.grow hsep (Disk.makeDirectories_changes d _)
  · exact h

/-- Staging a file skips it or, unless it held its text before, makes it wait. What is left of a text
that falls short is taken away again. -/
theorem stage_progress (hsep : Separate old files) (h : Progress old files s d) (hf : f ∈ files)
    (hs : s f = .untouched) :
    (stage f.path f.content).Reaches station d
      (fun staged new => ∃ st : Status, st.IsStaged ∧
        (st = .waiting → old.read f.path ≠ .ok f.content.toUTF8) ∧ staged = st.staged? f ∧
        Progress old files (Function.update s f st) new)
      fun _ new => Progress old files (Function.update s f .aborted) new := by
  have hparent := parentEnds_progress hsep h f.path
  refine stage_rule (fun hheld => ?_) (fun _ _ _ hmade => ?_) (fun hnew _ new hmade hw => ?_)
    fun _ _ made new hmade hw => ?_
  · obtain ⟨content, hread, hdigest⟩ : ∃ content, d.read f.path = .ok content ∧
        Digest.sha256 content = Digest.sha256 f.content.toUTF8 := by
      cases hread : d.read f.path with
      | error fault => simp [holds, hread] at hheld
      | ok content => exact ⟨content, rfl, by simpa [holds, hread] using hheld⟩
    have hold := h.at?_of_read hsep hf (by simp [hs]) (by simp [hs]) hread
    exact ⟨.skipped, .inl rfl, nofun, rfl, h.skip hsep hf hs ⟨content, hdigest, hread, hold⟩⟩
  · rw [hmade] at hparent
    exact hparent.giveUp hsep hf hs
  · rw [hmade] at hparent
    refine ⟨.waiting, .inr rfl, fun _ hr => ?_, rfl, hparent.wait hsep hf hs hw⟩
    rw [h.readable hsep hf (by simp [hs]) (by simp [hs]) hr] at hnew
    simp [holds] at hnew
  · rw [hmade] at hparent
    rcases hw with rfl | ⟨part, hw⟩
    · rw [hparent.discard_nothing hsep hf (by simp [hs])]
      exact hparent.giveUp hsep hf hs
    · exact hparent.discard_part hsep hf hs hw

/-- Files that were staged did not hold their texts before. -/
def Renewed (old : Disk) (files : List Rendered) (s : Rendered → Status) : Prop :=
  ∀ f ∈ files, s f = .waiting ∨ s f = .installed → old.read f.path ≠ .ok f.content.toUTF8

theorem Renewed.update (h : Renewed old files s) {st : Status}
    (hst : st = .waiting ∨ st = .installed → old.read f.path ≠ .ok f.content.toUTF8) :
    Renewed old files (Function.update s f st) := by
  intro g hg hs
  by_cases hgf : g = f
  · subst hgf
    rw [Function.update_self] at hs
    exact hst hs
  · rw [Function.update_of_ne hgf] at hs
    exact h g hg hs

/-- Progress is made file by file. -/
theorem progress_stagewise (hsep : Separate old files) : Stagewise station files
    fun s d => Progress old files s d ∧ Renewed old files s where
  nodup := hsep.nodup
  stage := by
    rintro s d f hf hs - ⟨hp, hrenewed⟩
    refine (stage_progress station hsep hp hf hs).mono ?_ fun _ new hp' =>
      ⟨hp', hrenewed.update (by simp)⟩
    rintro _ new ⟨st, hst, hold, rfl, hp'⟩
    refine ⟨st, hst, rfl, hp', hrenewed.update ?_⟩
    rcases hst with rfl | rfl
    · simp
    · exact fun _ => hold rfl
  install := by
    rintro s d new f hf hs ⟨hp, hrenewed⟩ hr
    exact ⟨hp.install hsep hf hs hr, hrenewed.update fun _ => hrenewed f hf (.inl hs)⟩
  discard := by
    rintro s d f hf hs ⟨hp, hrenewed⟩
    exact ⟨hp.discard hsep hf hs, hrenewed.update (by simp)⟩

theorem renewed_start (old : Disk) (files : List Rendered) :
    Renewed old files fun _ => .untouched := by simp [Renewed]

/-- The first files hold their texts, and nothing else has changed. -/
structure CleanPrefix (old new : Disk) (files : List Rendered) (k : Nat) : Prop where
  le : k ≤ files.length
  installed : ∀ f ∈ files.take k, new.read f.path = .ok f.content.toUTF8 ∨ f.Skipped old new
  kept : ∀ f ∈ files.drop k, Disk.Unmoved old new (f.place old)
  readable : ∀ f ∈ files.drop k, ∀ content,
    old.read f.path = .ok content → new.read f.path = .ok content
  elsewhere : ∀ loc, (∀ f ∈ files.take k, loc ≠ f.place old) → Disk.Unmoved old new loc
  cleaned : ∀ f ∈ files, new.at? (f.waitingPlace old) = none ∨
    new.at? (f.waitingPlace old) = some .directory

/-- When no text waits and just the first files are installed, the prefix is clean. -/
theorem cleanPrefix_of_progress (hsep : Separate old files) (h : Progress old files s new) {k : Nat}
    (hk : k ≤ files.length) (htake : ∀ f ∈ files.take k, (s f).IsDone)
    (hdrop : ∀ f ∈ files.drop k, (s f).IsIdle) : CleanPrefix old new files k := by
  have hcases : ∀ f ∈ files, f ∈ files.take k ∨ f ∈ files.drop k := by
    intro f hf
    rw [← List.take_append_drop k files] at hf
    exact List.mem_append.mp hf
  have hwaiting : ∀ f ∈ files, s f ≠ .waiting := by
    intro f hf
    rcases hcases f hf with hm | hm
    · rcases htake f hm with hs | hs <;> simp [hs]
    · exact (hdrop f hm).1
  have hinstalled : ∀ f ∈ files.drop k, s f ≠ .installed := fun f hf => (hdrop f hf).2
  refine ⟨hk, ?_, ?_, ?_, ?_, ?_⟩
  · intro f hf
    have hst := h.stands f (List.mem_of_mem_take hf)
    rcases htake f hf with hs | hs
    · rw [hs] at hst
      exact .inr hst
    · rw [hs] at hst
      exact .inl (Disk.Has.read hst)
  · intro f hf
    exact h.place_unmoved hsep (List.mem_of_mem_drop hf) (hinstalled f hf)
  · intro f hf content hr
    have hm := List.mem_of_mem_drop hf
    exact h.readable hsep hm (hwaiting f hm) (hinstalled f hf) hr
  · intro loc hloc
    refine h.elsewhere loc (fun f hf hs => absurd hs (hwaiting f hf)) fun f hf hs => ?_
    rcases hcases f hf with hm | hm
    · exact hloc f hm
    · exact absurd hs (hinstalled f hm)
  · intro f hf
    exact h.waitingPlace_empty hsep hf (hwaiting f hf)

/-- An installation that fails leaves a clean prefix, which is empty if a file cannot be staged. -/
theorem persist_clean (hsep : Separate old files) {fault : ProjectFault}
    (h : ends station (persist files) old = (.error fault, new)) :
    ∃ k, CleanPrefix old new files k ∧
      ((∃ fault' d', ends station (stageAll [] files) old = (.error fault', d')) → k = 0) := by
  obtain ⟨k, s, hstuck, hk, htake, hdrop, hp, -⟩ :=
    ((progress_stagewise station hsep).persist ⟨.start old files, renewed_start old files⟩).failed h
  refine ⟨k, cleanPrefix_of_progress hsep hp hk htake hdrop, ?_⟩
  rintro ⟨fault', d', hstage⟩
  refine hstuck.resolve_right ?_
  rintro ⟨-, staged, d, hstaged⟩
  cases hstage.symm.trans hstaged

def toolless : Station := ⟨.plain fun _ => .missing, fun _ _ => .error .cancelled⟩

/-- A directory that stands in the way of the second of two files. -/
def blocked : Disk := ⟨[(["b"], .directory)]⟩

def blockedFiles : List Rendered := [⟨"a", "1"⟩, ⟨"b", "2"⟩]

theorem blocked_persist_clean :
    Separate blocked blockedFiles ∧
    (ends toolless (persist blockedFiles) blocked).1 = .error (.file "b" .isDirectory) ∧
    ∃ k, CleanPrefix blocked (ends toolless (persist blockedFiles) blocked).2 blockedFiles k ∧
      ((∃ fault' d', ends toolless (stageAll [] blockedFiles) blocked = (.error fault', d')) →
        k = 0) := by
  have hsep : Separate blocked blockedFiles := by
    refine ⟨by decide, by decide, ?_, by decide, by decide⟩
    intro f hf
    rcases List.mem_pair.mp hf with rfl | rfl <;> rfl
  have he : (ends toolless (persist blockedFiles) blocked).1 = .error (.file "b" .isDirectory) := by
    decide +kernel
  exact ⟨hsep, he, persist_clean toolless hsep (Prod.ext he rfl)⟩

/-- A medium that takes one byte at the second temporary. -/
def scarce : Station :=
  ⟨⟨fun _ => .missing, formatted?,
    fun place _ => if place = ["b.tmp"] then some ⟨1, .noSpace⟩ else none⟩,
    fun _ _ => .error .cancelled⟩

/-- The byte that arrives is taken away again, and so is the first text. -/
example : ((Task.writeFile "b.tmp" "23".toUTF8).ends scarce .empty).2.read "b.tmp" =
      .ok "2".toUTF8 ∧
    (ends scarce (persist [⟨"a", "1"⟩, ⟨"b", "23"⟩]) .empty).1 = .error (.file "b" .noSpace) ∧
    (ends scarce (persist [⟨"a", "1"⟩, ⟨"b", "23"⟩]) .empty).2.entries.isEmpty = true :=
  ⟨by decide +kernel, by decide +kernel, by decide +kernel⟩

def isFileOf (content : ByteArray) : Entry → Bool
  | .file held => held.data == content.data
  | .directory | .link _ => false

theorem at?_of_isFileOf {d : Disk} {l : Location} {content : ByteArray}
    (h : (d.at? l).any (isFileOf content) = true) : d.at? l = some (.file content) := by
  cases he : d.at? l with
  | none => rw [he] at h; cases h
  | some entry =>
    rw [he] at h
    cases entry with
    | file held => rw [ByteArray.ext (eq_of_beq h)]
    | directory => cases h
    | link target => cases h

def aliased : Disk := ⟨[(["d"], .directory), (["l"], .link "d")]⟩

/-- The place of one file is a link on the way to the other one. -/
def aliasedFiles : List Rendered := [⟨"l", "1"⟩, ⟨"l/x", "2"⟩]

/-- The first file replaces the link, and the text that waits behind it is out of reach. -/
theorem aliased_persist_leaves_temporary :
    (∀ f ∈ aliasedFiles, .up ∉ Path.parts f.path) ∧
    (aliasedFiles.map (Rendered.place aliased)).Nodup ∧
    (aliasedFiles.map fun f => (aliased.course f.path).finish).Nodup ∧
    (∀ f ∈ aliasedFiles, ∀ g ∈ aliasedFiles, f.place aliased ≠ g.waitingPlace aliased) ∧
    (∀ f ∈ aliasedFiles, aliased.at? (f.waitingPlace aliased) = none) ∧
    (ends toolless (persist aliasedFiles) aliased).1 = .error (.file "l/x" .notDirectory) ∧
    ∃ f ∈ aliasedFiles, (ends toolless (persist aliasedFiles) aliased).2.at?
      (f.waitingPlace aliased) = some (.file f.content.toUTF8) := by
  refine ⟨by decide, by decide, by decide, by decide, ?_, by decide +kernel, ?_⟩
  · intro f hf
    rcases List.mem_pair.mp hf with rfl | rfl <;> rfl
  · refine ⟨⟨"l/x", "2"⟩, List.mem_cons_of_mem _ List.mem_cons_self, at?_of_isFileOf ?_⟩
    decide +kernel

end Job

end NavTree
