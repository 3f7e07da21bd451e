import Mathlib.Data.List.Pairwise
import NavTree.Proofs.Project.MissingOnly

/-! # Files that are made are listed

The files that scaffolding makes are in its list unless a turn fails after it has made some: those of
a turn that fails are not listed. So the list is complete exactly if every turn that fails does so at
once, with its question or its first file.
-/
namespace NavTree

variable {kit : Equipment} {old d new : Disk} {templates made : List FileTemplate} {turn : Turn}
  {turns : List Turn} {t : FileTemplate} {l : Location} {p : String} {format : Formatter}

namespace Disk

/-- What is found is found in the same way while nothing that is there changes. -/
theorem alike_of_kept {spot : Spot} (hf : d.find .visit p = .ok spot) (hs : spot.entry ≠ none)
    (h : ∀ l, d.at? l ≠ none → new.at? l = d.at? l) : Alike d new p :=
  alike_of_looks fun l hl => h l (present_of_sights (find_eq_ok.mp hf).2 hs l hl)

theorem isPresent_eq_true :
    d.isPresent p = true ↔ ∃ spot, d.find .visit p = .ok spot ∧ spot.entry ≠ none := by
  rw [isPresent]
  cases d.find .visit p with
  | error fault => simp
  | ok spot => simp [Option.isSome_iff_ne_none]

/-- Where none of the templates is at a link, all that is there is kept. -/
theorem Gains.at?_kept (h : Gains d new (made.map (FileTemplate.mark format old))) (ho : Over old d)
    (hl : Linkless old templates) (hsub : made ⊆ templates) (hn : d.at? l ≠ none) :
    new.at? l = d.at? l := by
  rcases h l with (he | ⟨hnone, -⟩) | ⟨hv, content, hm, -⟩
  · exact he
  · exact absurd hnone hn
  · obtain ⟨target, hlink⟩ := hv.resolve_left hn
    obtain ⟨s, hs, he⟩ := List.mem_map.mp hm
    have hplace : old.place s.path = l := congrArg Prod.fst he
    exact absurd (hplace ▸ ho.link hlink) (hl s (hsub hs) target)

end Disk

namespace Turn

/-- The files that a turn gives account of. -/
def written (kit : Equipment) (turn : Turn) : List FileTemplate :=
  match (turn.ends kit).1 with
  | .ok _ => turn.chosen
  | .error _ => []

/-- If a turn fails, it is because of its question or of the first file that is asked for. -/
def FailsAtOnce (kit : Equipment) (turn : Turn) : Prop :=
  turn.failure? kit ≠ none → Job.FirstFails (turn.station kit) turn.before turn.chosen

theorem written_cases (kit : Equipment) (h : Unobstructed old templates)
    (hb : Begun kit.format old templates turn.before) (hsub : turn.report.templates ⊆ templates) :
    turn.FailsAtOnce kit ∧ Midway kit.format old turn.before templates (turn.written kit)
      (turn.ends kit).2 ∨
    ¬ turn.FailsAtOnce kit ∧ turn.written kit = [] ∧ ∃ t ∈ turn.chosen, ∃ front, t ∈ front ∧
      Midway kit.format old turn.before templates front (turn.ends kit).2 := by
  obtain ⟨result, new, he, hends⟩ := ends_cases kit h hb hsub
  rw [FailsAtOnce, failure?, written, he]
  cases hends with
  | idle _ hc =>
    have hnothing : Midway kit.format old turn.before templates turn.chosen turn.before :=
      hc.symm ▸ .refl hb.tree
    exact .inl ⟨fun hf => absurd rfl hf, hnothing⟩
  | refused _ hc => exact .inl ⟨fun _ => by simp [hc, Job.FirstFails], .refl hb.tree⟩
  | made hends =>
    cases hends with
    | made hm => exact .inl ⟨fun hf => absurd rfl hf, hm⟩
    | failed front hfiles _ hm hfirst =>
      cases front with
      | nil => exact .inl ⟨fun _ => hfirst.mp rfl, hm⟩
      | cons t front =>
        refine .inr ⟨fun hall => ?_, rfl, t, by simp [hfiles], t :: front, by simp, hm⟩
        exact absurd (hfirst.mpr (hall (by simp))) (by simp)

theorem created_eq (kit : Equipment) (h : Unobstructed old templates)
    (hb : Begun kit.format old templates turn.before) (hsub : turn.report.templates ⊆ templates) :
    turn.created kit = (turn.written kit).map (·.path) := by
  have hcreated := (makesMissing kit h hb hsub).created
  rw [created, written]
  cases hr : (turn.ends kit).1 with
  | ok made => exact hcreated made hr
  | error fault => rfl

/-- A turn makes the file of a template. -/
structure Gives (kit : Equipment) (old : Disk) (turn : Turn) (t : FileTemplate) : Prop where
  vacant : turn.before.Vacant (old.place t.path)
  has : ∃ content, Disk.Has old (turn.ends kit).2 t.path content

/-- No place is given to a file in both of two turns. -/
def Apart (kit : Equipment) (old : Disk) (turn other : Turn) : Prop :=
  ∀ s t, turn.Gives kit old s → other.Gives kit old t → old.place s.path ≠ old.place t.path

instance (kit : Equipment) (old : Disk) : Std.Symm (Apart kit old) :=
  ⟨fun _ _ h s t hs ht => (h t s ht hs).symm⟩

theorem gives_of_midway (hl : Linkless old templates)
    (hm : Midway kit.format old turn.before templates made (turn.ends kit).2) (ht : t ∈ made) :
    turn.Gives kit old t := ⟨(hm.held hl t ht).1, (hm.held hl t ht).2⟩

end Turn

namespace Takes

theorem split {front back : List Turn} (h : Takes kit d (front ++ turn :: back) new) :
    Takes kit d front turn.before ∧ Takes kit (turn.ends kit).2 back new := by
  obtain ⟨mid, hfront, rfl, hback⟩ := append.mp h
  exact ⟨hfront, hback⟩

theorem apart {gained : Turn → List (Location × ByteArray)} (h : Takes kit d turns new)
    (hg : ∀ turn ∈ turns, Disk.Gains turn.before (turn.ends kit).2 (gained turn)) :
    turns.Pairwise (Turn.Apart kit old) := by
  induction turns generalizing d with
  | nil => exact .nil
  | cons turn rest ih =>
    obtain ⟨rfl, hrest⟩ := h
    obtain ⟨-, hg⟩ := List.forall_mem_cons.mp hg
    -- What this turn makes is a file when a later one has its turn, and files are not made over.
    refine .cons (fun later hlater s t hs ht he => ?_) (ih hrest hg)
    obtain ⟨front, back, rfl⟩ := List.append_of_mem hlater
    have hbetween := hrest.split.1.gains fun x hx => hg x (List.mem_append_left _ hx)
    obtain ⟨content, hhas⟩ := hs.has
    exact ht.vacant.not_file (he ▸ hbetween.file hhas.at?)

end Takes

/-- Each template that was missing, and whose file is read now, has a path listed that names the same
place. -/
def Accounts (old new : Disk) (templates : List FileTemplate) (created : List String) : Prop :=
  ∀ t ∈ templates, old.isPresent t.path = false → ∀ content, new.read t.path = .ok content →
    ∃ p ∈ created, old.place p = old.place t.path

/-- What was made at no other places than those of some files is accounted for by their paths. -/
theorem accounts_of_gains (h : Unobstructed old templates) (hl : Linkless old templates)
    (hg : Disk.Gains old new (made.map (FileTemplate.mark format old))) :
    Accounts old new templates (made.map (·.path)) := by
  intro t ht habsent content hread
  have hhas : Disk.Has old new t.path content := Disk.has_of_read hg.toOver (hl t ht) hread
  have hmissing : old.at? (old.place t.path) ≠ some (.file content) := by
    intro hfile
    have hold := Disk.read_of_found h.tree hg.toOver hg.toOver hhas hfile (h.direct t ht)
    rw [Disk.isPresent_of_read hold] at habsent
    cases habsent
  rcases hg (old.place t.path) with (he | ⟨-, hd⟩) | ⟨-, held, hm, -⟩
  · exact absurd (he ▸ hhas.at?) hmissing
  · rw [hhas.at?] at hd
    cases hd
  · obtain ⟨s, hs, he⟩ := List.mem_map.mp hm
    exact ⟨s.path, List.mem_map_of_mem hs, congrArg Prod.fst he⟩

section

variable (h : Unobstructed old templates) (hl : Linkless old templates)
  (htakes : Takes kit old turns new)
  (hsub : ∀ turn ∈ turns, turn.report.templates ⊆ templates)
include h hl htakes hsub

/-- What one turn makes no other turn gives account of. -/
theorem place_ne_of_written (hturn : turn ∈ turns) (hgives : turn.Gives kit old t)
    (hnone : turn.written kit = []) {s : FileTemplate}
    (hs : s ∈ turns.flatMap (·.written kit)) : old.place s.path ≠ old.place t.path := by
  have hall := htakes.makesMissing h hsub
  have hapart : turns.Pairwise (Turn.Apart kit old) :=
    htakes.apart fun x hx => (hall x hx).2.gains
  obtain ⟨other, hother, hs⟩ := List.mem_flatMap.mp hs
  have hne : other ≠ turn := by
    rintro rfl
    simp [hnone] at hs
  have hgiven : other.Gives kit old s := by
    rcases Turn.written_cases kit h (hall other hother).1 (hsub other hother) with
      ⟨-, hm⟩ | ⟨-, hempty, -⟩
    · exact Turn.gives_of_midway hl hm hs
    · simp [hempty] at hs
  exact hapart.forall hother hturn hne s t hgiven hgives

/-- A turn that fails behind its first file has made one that no turn gives account of. -/
theorem exists_unlisted (hturn : turn ∈ turns) (hlate : ¬ turn.FailsAtOnce kit) :
    ∃ t ∈ templates, old.isPresent t.path = false ∧ (∃ content, new.read t.path = .ok content) ∧
      ∀ s ∈ turns.flatMap (·.written kit), old.place s.path ≠ old.place t.path := by
  have hall := htakes.makesMissing h hsub
  have hb := (hall turn hturn).1
  obtain ⟨-, hnone, t, ht, front, hfront, hm⟩ :=
    (Turn.written_cases kit h hb (hsub turn hturn)).resolve_left fun ho => hlate ho.1
  obtain ⟨hmem, habsent⟩ := Turn.mem_of_mem_chosen ht
  have hgives : turn.Gives kit old t := Turn.gives_of_midway hl hm hfront
  refine ⟨t, hsub turn hturn hmem, ?_, ?_, fun s hs =>
    place_ne_of_written h hl htakes hsub hturn hgives hnone hs⟩
  -- It was missing from the beginning, for what is there stays until its turn.
  · by_contra hpresent
    obtain ⟨spot, hf, hs⟩ := Disk.isPresent_eq_true.mp (by simpa using hpresent)
    have halike := Disk.alike_of_kept hf hs fun l hn =>
      hb.gains.at?_kept (.refl old) hl (List.Subset.refl _) hn
    rw [Disk.isPresent, halike, hf] at habsent
    simp [hs] at habsent
  · obtain ⟨xs, back, rfl⟩ := List.append_of_mem hturn
    obtain ⟨content, hhas⟩ := hgives.has
    obtain ⟨spot, hf, hs⟩ := Disk.read_eq_ok.mp hhas.read
    have hback := htakes.split.2.gains fun x hx => (hall x (by simp [hx])).2.gains
    rw [← List.map_flatMap] at hback
    have hafter : back.flatMap (·.chosen) ⊆ templates := fun s hs => by
      obtain ⟨x, hx, hs⟩ := List.mem_flatMap.mp hs
      exact hsub x (by simp [hx]) (Turn.mem_of_mem_chosen hs).1
    have halike := Disk.alike_of_kept hf (by simp [hs]) fun l hn =>
      hback.at?_kept (hb.gains.trans hm.gains).toOver hl hafter hn
    exact ⟨content, halike.read.trans hhas.read⟩

end

/-- Without links at the places of templates, what scaffolding makes is listed, also where it fails,
exactly if no turn fails behind a file that it has made. -/
theorem scaffoldReports_accounts_iff {reports : List FileReport} {out : Outcome ScaffoldSummary}
    (h : Unobstructed old (reports.flatMap (·.templates)))
    (hl : Linkless old (reports.flatMap (·.templates)))
    (hc : (scaffoldReports reports).Comes kit old out) : ∃ turns : List Turn,
      turns.map (·.report) = reports ∧ Takes kit old turns out.disk ∧
      (Accounts old out.disk (reports.flatMap (·.templates)) out.value.created ↔
        ∀ turn ∈ turns, turn.FailsAtOnce kit) := by
  obtain ⟨turns, rfl, htakes, hcreated, -, -⟩ := hc.turns
  have hsub : ∀ turn ∈ turns, turn.report.templates ⊆
      (turns.map (·.report)).flatMap (·.templates) := fun _ => Turn.templates_subset
  have hall := htakes.makesMissing h hsub
  have hlisted : out.value.created = (turns.flatMap (·.written kit)).map (·.path) := by
    rw [hcreated, List.map_flatMap]
    exact List.flatMap_congr fun turn ht => Turn.created_eq kit h (hall turn ht).1 (hsub turn ht)
  refine ⟨turns, rfl, htakes, fun haccounts turn ht => ?_, fun honce => ?_⟩
  · by_contra hlate
    obtain ⟨t, hm, habsent, ⟨content, hread⟩, hne⟩ := exists_unlisted h hl htakes hsub ht hlate
    obtain ⟨p, hp, hplace⟩ := haccounts t hm habsent content hread
    rw [hlisted] at hp
    obtain ⟨s, hs, rfl⟩ := List.mem_map.mp hp
    exact hne s hs hplace
  · have hgains : Disk.Gains old out.disk
        ((turns.flatMap (·.written kit)).map (FileTemplate.mark kit.format old)) := by
      rw [List.map_flatMap]
      refine htakes.gains fun turn ht => ?_
      rcases Turn.written_cases kit h (hall turn ht).1 (hsub turn ht) with
        ⟨-, hm⟩ | ⟨hlate, -⟩
      · exact hm.gains
      · exact absurd (honce turn ht) hlate
    rw [hlisted]
    exact accounts_of_gains h hl hgains

namespace Plain

def keptDisk : Disk := ⟨[(["d"], .directory), (["f", "d"], .file "keep".toUTF8)]⟩

/-- Two sources, of which the second one asks for a file below a file and fails at once. -/
def twoReports : List FileReport := [report ["m/f", "d/f"], report ["d/f/x", "k"]]

theorem keptDisk_unobstructed : Unobstructed keptDisk (twoReports.flatMap (·.templates)) where
  tree := by
    refine Disk.isTree_of_entries fun x hx => ?_
    rcases List.mem_pair.mp hx with rfl | rfl <;> rfl
  free := by decide
  clear := by decide
  direct := by decide

theorem keptDisk_linkless : Linkless keptDisk (twoReports.flatMap (·.templates)) :=
  fun _ _ => keptDisk.not_link_of_entries (by simp [keptDisk]) _

theorem two_accounts_iff :
    Unobstructed keptDisk (twoReports.flatMap (·.templates)) ∧
    Linkless keptDisk (twoReports.flatMap (·.templates)) ∧
    (scaffoldReports twoReports).Comes takeAll.equipment keptDisk
      ((scaffoldReports twoReports).run takeAll keptDisk) ∧
    ∃ turns : List Turn, turns.map (·.report) = twoReports ∧
      Takes takeAll.equipment keptDisk turns
        ((scaffoldReports twoReports).run takeAll keptDisk).disk ∧
      (Accounts keptDisk ((scaffoldReports twoReports).run takeAll keptDisk).disk
          (twoReports.flatMap (·.templates))
          ((scaffoldReports twoReports).run takeAll keptDisk).value.created ↔
        ∀ turn ∈ turns, turn.FailsAtOnce takeAll.equipment) :=
  have hc := Task.comes_run takeAll (scaffoldReports twoReports) keptDisk
  ⟨keptDisk_unobstructed, keptDisk_linkless, hc,
    scaffoldReports_accounts_iff keptDisk_unobstructed keptDisk_linkless hc⟩

/-- A source whose second file is to be in a directory where a file is. -/
def blockedDisk : Disk := ⟨[(["b"], .file "keep".toUTF8)]⟩

/-- The first file is made, and it is not listed. -/
theorem failed_scaffold_unlisted :
    blockedDisk.isPresent "a/f" = false ∧
    ((scaffoldReports [report ["a/f", "b/f"]]).run takeAll blockedDisk).disk.read "a/f" =
      .ok "new".toUTF8 ∧
    ((scaffoldReports [report ["a/f", "b/f"]]).run takeAll blockedDisk).value.created = [] :=
  ⟨by decide +kernel, by decide +kernel, by decide +kernel⟩

end Plain

end NavTree
