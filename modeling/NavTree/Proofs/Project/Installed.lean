import NavTree.Proofs.Files.Departure
import NavTree.Proofs.Project.Persist
import NavTree.Proofs.Task.Quiet

/-! # Completed installations

An installation that succeeds leaves every file with its text and nothing else changed. It reports
as unchanged exactly the files that held their texts before, and a second one changes nothing.
-/
namespace NavTree

variable {old d new : Disk} {files done rest : List Rendered} {f : Rendered}
  {s s' : Rendered → Status} {outcomes : List (String × WriteOutcome)} (station : Station)

/-- No file is mistaken for holding its text: what it held has another digest or is that text. -/
def NoCollision (old : Disk) (files : List Rendered) : Prop :=
  ∀ f ∈ files, ∀ content, old.read f.path = .ok content →
    Digest.sha256 content = Digest.sha256 f.content.toUTF8 → content = f.content.toUTF8

/-- On the way to a file no place is left that is missing. -/
def Direct (old : Disk) (files : List Rendered) : Prop :=
  ∀ f ∈ files, ∀ l ∈ old.left f.path, old.at? l ≠ none

/-- A file that was left alone held its text before. -/
theorem Progress.skipped_held (h : Progress old files s d) (hsep : Separate old files)
    (htree : old.IsTree) (hdirect : Direct old files) (hno : NoCollision old files)
    (hf : f ∈ files) (hs : s f = .skipped) :
    old.read f.path = .ok f.content.toUTF8 ∧ d.read f.path = .ok f.content.toUTF8 := by
  have hst := h.stands f hf
  rw [hs] at hst
  obtain ⟨content, hdigest, hread, hat⟩ := hst
  have hbefore := Disk.read_before htree h.over_old hread
    (h.course_link hsep hf (by simp [hs])) hat (hdirect f hf)
  obtain rfl := hno f hf content hbefore hdigest
  exact ⟨hbefore, hread⟩

namespace Job

/-- Every file holds its text, each is reported by what it held before, nothing else has changed,
and installing again does nothing. -/
structure Installed (station : Station) (old new : Disk) (files : List Rendered)
    (outcomes : List (String × WriteOutcome)) : Prop where
  reported : List.Forall₂ (fun f o => o.1 = f.path ∧
    (o.2 = .unchanged ↔ old.read f.path = .ok f.content.toUTF8)) files outcomes
  held : ∀ f ∈ files, new.read f.path = .ok f.content.toUTF8
  elsewhere : ∀ loc, (∀ f ∈ files, old.read f.path ≠ .ok f.content.toUTF8 → loc ≠ f.place old) →
    Disk.Unmoved old new loc
  cleaned : ∀ f ∈ files, new.at? (f.waitingPlace old) = none ∨
    new.at? (f.waitingPlace old) = some .directory
  settled : ends station (persist files) new =
    (.ok (unchanged (files.map (·.path))), new)

/-- An installation that succeeds has skipped the files that held their texts and installed all
others. -/
theorem persist_progress (hsep : Separate old files)
    (h : ends station (persist files) old = (.ok outcomes, new)) :
    ∃ s, Progress old files s new ∧ outcomes = files.map (outcome s) ∧
      ∀ f ∈ files, s f = .skipped ∨
        s f = .installed ∧ old.read f.path ≠ .ok f.content.toUTF8 := by
  obtain ⟨s, houtcomes, hdone, hp, hrenewed⟩ :=
    ((progress_stagewise station hsep).persist ⟨.start old files, renewed_start old files⟩).ok h
  exact ⟨s, hp, houtcomes, fun f hf =>
    (hdone f hf).imp_right fun hs => ⟨hs, hrenewed f hf (.inr hs)⟩⟩

/-- If the files are apart and the ways to them direct, an installation that succeeds is complete. -/
theorem persist_installs (htree : old.IsTree) (hsep : Separate old files)
    (hdirect : Direct old files) (hno : NoCollision old files)
    (h : ends station (persist files) old = (.ok outcomes, new)) :
    Installed station old new files outcomes := by
  obtain ⟨s, hp, rfl, hs⟩ := persist_progress station hsep h
  have hskipped : ∀ f ∈ files, s f = .skipped ↔ old.read f.path = .ok f.content.toUTF8 := by
    intro f hf
    refine ⟨fun hsf => (hp.skipped_held hsep htree hdirect hno hf hsf).1, fun hr => ?_⟩
    exact (hs f hf).resolve_right fun hi => hi.2 hr
  have hheld : ∀ f ∈ files, new.read f.path = .ok f.content.toUTF8 := by
    intro f hf
    rcases hs f hf with hsf | ⟨hsf, -⟩
    · exact (hp.skipped_held hsep htree hdirect hno hf hsf).2
    · have hst := hp.stands f hf
      rw [hsf] at hst
      exact Disk.Has.read hst
  have hwaiting : ∀ f ∈ files, s f ≠ .waiting := by
    intro f hf
    rcases hs f hf with hsf | ⟨hsf, -⟩ <;> simp [hsf]
  have hholds : ∀ f ∈ files, holds (new.read f.path) f.content.toUTF8 = true := by
    intro f hf
    simp [hheld f hf, holds]
  refine ⟨?_, hheld, ?_, ?_, persist_held hholds station⟩
  · rw [List.forall₂_map_right_iff, List.forall₂_same]
    intro f hf
    refine ⟨rfl, ?_⟩
    rw [← hskipped f hf, outcome]
    split <;> simp_all
  · intro loc hloc
    refine hp.elsewhere loc (fun f hf hsf => absurd hsf (hwaiting f hf)) fun f hf hsf => ?_
    refine hloc f hf fun hr => ?_
    simp [(hskipped f hf).mpr hr] at hsf
  · exact fun f hf => hp.waitingPlace_empty hsep hf (hwaiting f hf)

/-- A link to a file that holds the text already, past a directory that is there, and a file in a
directory that is made. -/
def linked : Disk :=
  ⟨[(["d"], .directory), (["x", "d"], .file "1".toUTF8), (["l"], .link "d/../d/x")]⟩

def linkedFiles : List Rendered := [⟨"l", "1"⟩, ⟨"e/y", "2"⟩]

theorem linked_persist_installs :
    linked.IsTree ∧ Separate linked linkedFiles ∧ Direct linked linkedFiles ∧
    NoCollision linked linkedFiles ∧
    (ends toolless (persist linkedFiles) linked).1 = .ok [("l", .unchanged), ("e/y", .written)] ∧
    Installed toolless linked (ends toolless (persist linkedFiles) linked).2 linkedFiles
      [("l", .unchanged), ("e/y", .written)] := by
  have htree : linked.IsTree := by
    refine Disk.isTree_of_entries fun x hx => ?_
    rcases List.mem_cons.mp hx with rfl | hx
    · rfl
    rcases List.mem_pair.mp hx with rfl | rfl <;> rfl
  have hsep : Separate linked linkedFiles := by
    refine ⟨by decide, by decide, ?_, by decide, by decide⟩
    intro f hf
    rcases List.mem_pair.mp hf with rfl | rfl <;> rfl
  have hdirect : Direct linked linkedFiles := by
    unfold Direct
    decide
  have hno : NoCollision linked linkedFiles := by
    intro f hf content hr _
    rcases List.mem_pair.mp hf with rfl | rfl
    · exact (Except.ok.inj hr).symm
    · cases hr
  have hok : (ends toolless (persist linkedFiles) linked).1 =
      .ok [("l", .unchanged), ("e/y", .written)] := by decide +kernel
  exact ⟨htree, hsep, hdirect, hno, hok,
    persist_installs toolless htree hsep hdirect hno (Prod.ext hok rfl)⟩

/-- The two files of the aliased disk in the other order, so that both are installed. -/
def redirectedFiles : List Rendered := [⟨"l/x", "1"⟩, ⟨"l", "2"⟩]

def redirected : Disk := (ends toolless (persist redirectedFiles) aliased).2

/-- The second file replaces the link that leads to the first one, which is out of reach then. -/
theorem redirected_persist_unsettled :
    (∀ f ∈ redirectedFiles, .up ∉ Path.parts f.path) ∧
    (redirectedFiles.map (Rendered.place aliased)).Nodup ∧
    (redirectedFiles.map fun f => (aliased.course f.path).finish).Nodup ∧
    (∀ f ∈ redirectedFiles, ∀ g ∈ redirectedFiles, f.place aliased ≠ g.waitingPlace aliased) ∧
    (∀ f ∈ redirectedFiles, aliased.at? (f.waitingPlace aliased) = none) ∧
    NoCollision aliased redirectedFiles ∧
    (ends toolless (persist redirectedFiles) aliased).1 =
      .ok [("l/x", .written), ("l", .written)] ∧
    redirected.read "l/x" = .error .notDirectory ∧
    (ends toolless (persist redirectedFiles) redirected).1 = .error (.file "l" .exists) := by
  refine ⟨by decide, by decide, by decide, by decide, ?_, ?_, by decide +kernel, by decide +kernel,
    by decide +kernel⟩
  · intro f hf
    rcases List.mem_pair.mp hf with rfl | rfl <;> rfl
  · intro f hf content hr _
    rcases List.mem_pair.mp hf with rfl | rfl <;> cases hr

/-- A link that leads through a missing directory and out of it again. -/
def detour : Disk := ⟨[(["f"], .file "1".toUTF8), (["l"], .link "x/../f")]⟩

def detourFiles : List Rendered := [⟨"x/y", "2"⟩, ⟨"l", "1"⟩]

/-- The link leads nowhere until the directory is made, and then to a file with the text: what is
reported of it is not what it held before. -/
theorem detour_persist_unchanged :
    detour.IsTree ∧ Separate detour detourFiles ∧ NoCollision detour detourFiles ∧
    detour.read "l" = .error .notFound ∧
    (ends toolless (persist detourFiles) detour).1 =
      .ok [("x/y", .written), ("l", .unchanged)] := by
  have htree : detour.IsTree := by
    refine Disk.isTree_of_entries fun x hx => ?_
    rcases List.mem_pair.mp hx with rfl | rfl <;> rfl
  refine ⟨htree, ⟨by decide, by decide, ?_, by decide, by decide⟩, ?_, rfl, by decide +kernel⟩
  · intro f hf
    rcases List.mem_pair.mp hf with rfl | rfl <;> rfl
  · intro f hf content hr _
    rcases List.mem_pair.mp hf with rfl | rfl <;> cases hr

end Job

end NavTree
