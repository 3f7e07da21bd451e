import NavTree.Proofs.Project.Making
import NavTree.Proofs.Project.Turns

/-! # Only missing files are made

Whatever is answered, each report has its turn: it is asked about exactly the files that are missing
then, makes nothing but chosen ones, and keeps every file that was there. A cancelled question leaves
the disk as it is and is no failure.
-/
namespace NavTree

variable {kit : Equipment} {old d new : Disk} {templates : List FileTemplate} {turn : Turn}
  {turns : List Turn}

/-- What a turn comes to: nothing, the failure of its question, or what making the chosen files
comes to. -/
inductive TurnEnds (kit : Equipment) (old : Disk) (templates : List FileTemplate) (turn : Turn) :
    Except ProjectFault (List String) → Disk → Prop
  | idle (h : turn.offered = [] ∨ turn.answer = .error .cancelled) (hc : turn.chosen = []) :
    TurnEnds kit old templates turn (.ok []) turn.before
  | refused {reason : String} (ha : turn.answer = .error (.failed reason)) (hc : turn.chosen = []) :
    TurnEnds kit old templates turn (.error (.toolFailed "prompt" reason)) turn.before
  | made {result : Except ProjectFault (List String)} {new : Disk}
    (h : Job.MakeEnds (turn.station kit) old turn.before templates [] turn.before turn.chosen
      result new) : TurnEnds kit old templates turn result new

namespace Turn

theorem chosen_of_nothing (h : turn.offered = []) : turn.chosen = [] := by
  rw [chosen]
  cases turn.answer with
  | ok picks => rw [h]; exact List.filterMap_eq_nil_iff.mpr fun _ _ => rfl
  | error fault => rfl

theorem mem_of_mem_chosen {t : FileTemplate} (h : t ∈ turn.chosen) :
    t ∈ turn.report.templates ∧ turn.before.isPresent t.path = false := by
  rw [chosen] at h
  split at h
  · simpa [offered, Job.offered] using Job.mem_of_mem_chosen h
  · cases h

theorem ends_cases (kit : Equipment) (h : Unobstructed old templates)
    (hb : Begun kit.format old templates turn.before) (hsub : turn.report.templates ⊆ templates) :
    ∃ result new, turn.ends kit = (result, new) ∧
      TurnEnds kit old templates turn result new := by
  rw [ends_eq]
  by_cases hnone : turn.offered = []
  · rw [if_pos hnone]
    exact ⟨_, _, rfl, .idle (.inl hnone) (chosen_of_nothing hnone)⟩
  rw [if_neg hnone]
  rcases ha : turn.answer with (_ | reason) | picks
  · exact ⟨_, _, rfl, .idle (.inr ha) (by rw [chosen, ha])⟩
  · exact ⟨_, _, rfl, .refused ha (by rw [chosen, ha])⟩
  · have hoffered : ∀ t ∈ turn.offered, t ∈ templates ∧ turn.before.isPresent t.path = false := by
      intro t ht
      obtain ⟨hm, habsent⟩ := List.mem_filter.mp ht
      exact ⟨hsub hm, by simpa using habsent⟩
    obtain ⟨result, new, he, hends⟩ := Job.create_ends (turn.station kit) h hb hoffered
      (.refl hb.tree) (List.nil_subset _) picks
    refine ⟨result, new, he, .made ?_⟩
    rwa [chosen, ha]

/-- What a turn makes is among the chosen files. -/
theorem midway (kit : Equipment) (h : Unobstructed old templates)
    (hb : Begun kit.format old templates turn.before) (hsub : turn.report.templates ⊆ templates) :
    ∃ front rest, turn.chosen = front ++ rest ∧
      Midway kit.format old turn.before templates front (turn.ends kit).2 := by
  obtain ⟨result, new, he, hends⟩ := ends_cases kit h hb hsub
  rw [he]
  cases hends with
  | idle _ hc => exact ⟨[], [], hc, .refl hb.tree⟩
  | refused _ hc => exact ⟨[], [], hc, .refl hb.tree⟩
  | made hends =>
    cases hends with
    | made hm => exact ⟨turn.chosen, [], (List.append_nil _).symm, hm⟩
    | failed _ hfiles _ hm _ => exact ⟨_, _, hfiles, hm⟩

end Turn

namespace Takes

theorem append {front back : List Turn} :
    Takes kit d (front ++ back) new ↔
      ∃ mid, Takes kit d front mid ∧ Takes kit mid back new := by
  induction front generalizing d with
  | nil => simp [Takes]
  | cons turn front ih => simp [Takes, ih, and_assoc]

/-- What each turn gains is gained by all of them. -/
theorem gains {made : Turn → List (Location × ByteArray)} (h : Takes kit d turns new)
    (hg : ∀ turn ∈ turns, Disk.Gains turn.before (turn.ends kit).2 (made turn)) :
    Disk.Gains d new (turns.flatMap made) := by
  induction turns generalizing d with
  | nil =>
    obtain rfl : new = d := h
    exact .refl new []
  | cons turn rest ih =>
    obtain ⟨rfl, hrest⟩ := h
    obtain ⟨hturn, hg⟩ := List.forall_mem_cons.mp hg
    rw [List.flatMap_cons]
    exact hturn.trans (ih hrest hg)

theorem begun (h : Unobstructed old templates) (hb : Begun kit.format old templates d)
    (ht : Takes kit d turns new) (hsub : ∀ turn ∈ turns, turn.report.templates ⊆ templates) :
    Begun kit.format old templates new ∧
      ∀ turn ∈ turns, Begun kit.format old templates turn.before := by
  induction turns generalizing d with
  | nil =>
    obtain rfl : new = d := ht
    exact ⟨hb, by simp⟩
  | cons turn rest ih =>
    obtain ⟨rfl, hrest⟩ := ht
    obtain ⟨hturn, hsub⟩ := List.forall_mem_cons.mp hsub
    obtain ⟨front, behind, hchosen, hm⟩ := Turn.midway kit h hb hturn
    have hfront : front ⊆ templates := fun t ht =>
      hturn (Turn.mem_of_mem_chosen (hchosen ▸ List.mem_append_left _ ht)).1
    obtain ⟨hnew, hall⟩ := ih (hb.next hm hfront) hrest hsub
    exact ⟨hnew, List.forall_mem_cons.mpr ⟨hb, hall⟩⟩

end Takes

/-- A turn makes files with the texts of chosen templates, at their places, and only where nothing or
a link was; it keeps every file. Without a choice nothing happens. -/
structure Turn.MakesMissing (kit : Equipment) (old : Disk) (turn : Turn) : Prop where
  gains : Disk.Gains turn.before (turn.ends kit).2
    (turn.chosen.map (FileTemplate.mark kit.format old))
  read : ∀ p content, turn.before.read p = .ok content →
    (∀ t ∈ turn.chosen, old.place t.path ∉ turn.before.looks p) →
    (turn.ends kit).2.read p = .ok content
  created : ∀ made, (turn.ends kit).1 = .ok made → made = turn.chosen.map (·.path)
  idle : turn.offered = [] ∨ turn.answer = .error .cancelled →
    turn.ends kit = (.ok [], turn.before)

theorem Turn.makesMissing (kit : Equipment) (h : Unobstructed old templates)
    (hb : Begun kit.format old templates turn.before) (hsub : turn.report.templates ⊆ templates) :
    turn.MakesMissing kit old := by
  obtain ⟨front, rest, hchosen, hm⟩ := midway kit h hb hsub
  have hgains : Disk.Gains turn.before (turn.ends kit).2
      (turn.chosen.map (FileTemplate.mark kit.format old)) :=
    hm.gains.mono (List.map_subset _ (hchosen ▸ List.subset_append_left front rest))
  refine ⟨hgains, fun p content hread hlooks => ?_, fun made hok => ?_, fun hidle => ?_⟩
  · refine Disk.read_of_unmoved hread fun l hl => (hgains l).resolve_right ?_
    rintro ⟨-, held, hmem, -⟩
    obtain ⟨t, ht, he⟩ := List.mem_map.mp hmem
    have hplace : old.place t.path = l := congrArg Prod.fst he
    exact hlooks t ht (hplace ▸ hl)
  · obtain ⟨result, new, he, hends⟩ := ends_cases kit h hb hsub
    rw [he] at hok
    obtain rfl : result = .ok made := hok
    cases hends with
    | idle _ hc => rw [hc]; rfl
    | made hends => cases hends; rfl
  · rw [ends_eq]
    by_cases hnone : turn.offered = []
    · rw [if_pos hnone]
    · rw [if_neg hnone, hidle.resolve_left hnone]

theorem Turn.templates_subset (ht : turn ∈ turns) :
    turn.report.templates ⊆ (turns.map (·.report)).flatMap (·.templates) :=
  fun _ hm => List.mem_flatMap.mpr ⟨_, List.mem_map_of_mem ht, hm⟩

theorem Takes.makesMissing (h : Unobstructed old templates) (ht : Takes kit old turns new)
    (hsub : ∀ turn ∈ turns, turn.report.templates ⊆ templates) :
    ∀ turn ∈ turns, Begun kit.format old templates turn.before ∧ turn.MakesMissing kit old := by
  intro turn hturn
  have hb := (ht.begun h ⟨h.tree, .refl old _⟩ hsub).2 turn hturn
  exact ⟨hb, Turn.makesMissing kit h hb (hsub turn hturn)⟩

/-- However the questions are answered, the reports are scaffolded for in turns, each on the disk that
the one before it leaves, failed or not. The questions are those of the turns, and what fails is what
fails in a turn; each turn makes missing files only, and all of them together do. -/
theorem scaffoldReports_missing_only {reports : List FileReport} {out : Outcome ScaffoldSummary}
    (h : Unobstructed old (reports.flatMap (·.templates)))
    (hc : (scaffoldReports reports).Comes kit old out) : ∃ turns : List Turn,
      turns.map (·.report) = reports ∧ Takes kit old turns out.disk ∧
      out.signs.filterMap Sign.question? = turns.flatMap (·.questions) ∧
      out.value.failed = turns.filterMap (·.failure? kit) ∧
      (∀ turn ∈ turns, turn.MakesMissing kit old) ∧
      Disk.Gains old out.disk ((turns.flatMap (·.chosen)).map (FileTemplate.mark kit.format old)) := by
  obtain ⟨turns, rfl, htakes, -, hfailed, hasked⟩ := hc.turns
  have hall : ∀ turn ∈ turns, turn.MakesMissing kit old :=
    fun turn ht => (htakes.makesMissing h (fun _ => Turn.templates_subset) turn ht).2
  refine ⟨turns, rfl, htakes, hasked, hfailed, hall, ?_⟩
  rw [List.map_flatMap]
  exact htakes.gains fun turn ht => (hall turn ht).gains

namespace Plain

def template (path : String) : FileTemplate := ⟨path, path, "new"⟩

def report (paths : List String) : FileReport := ⟨"navigation.json", [], paths.map template⟩

/-- A file, and a link that leads nowhere. -/
def threeDisk : Disk :=
  ⟨[(["d"], .directory), (["f", "d"], .file "keep".toUTF8), (["l"], .link "z")]⟩

/-- For the first source a missing file and the link are made, the second one asks for a file below a
file, and the question of the third one is cancelled. -/
def threeReports : List FileReport :=
  [report ["m/f", "d/f", "l"], report ["d/f/x"], report ["m/f", "k"]]

def threeStation : Station where
  equipment := .plain fun _ => .missing
  answer _ items := match items with
    | ["m/f", "l"] => .ok [1, 9, 0, 1]
    | ["k"] => .error .cancelled
    | _ => .ok [0]

theorem threeDisk_unobstructed : Unobstructed threeDisk (threeReports.flatMap (·.templates)) where
  tree := by
    refine Disk.isTree_of_entries fun x hx => ?_
    rcases List.mem_cons.mp hx with rfl | hx
    · rfl
    rcases List.mem_pair.mp hx with rfl | rfl <;> rfl
  free := by decide
  clear := by decide
  direct := by decide

theorem three_missing_only :
    Unobstructed threeDisk (threeReports.flatMap (·.templates)) ∧
    (scaffoldReports threeReports).Comes threeStation.equipment threeDisk
      ((scaffoldReports threeReports).run threeStation threeDisk) ∧
    ∃ turns : List Turn, turns.map (·.report) = threeReports ∧
      Takes threeStation.equipment threeDisk turns
        ((scaffoldReports threeReports).run threeStation threeDisk).disk ∧
      ((scaffoldReports threeReports).run threeStation threeDisk).signs.filterMap Sign.question? =
        turns.flatMap (·.questions) ∧
      ((scaffoldReports threeReports).run threeStation threeDisk).value.failed =
        turns.filterMap (·.failure? threeStation.equipment) ∧
      (∀ turn ∈ turns, turn.MakesMissing threeStation.equipment threeDisk) ∧
      Disk.Gains threeDisk ((scaffoldReports threeReports).run threeStation threeDisk).disk
        ((turns.flatMap (·.chosen)).map (FileTemplate.mark threeStation.format threeDisk)) :=
  have hc := Task.comes_run threeStation (scaffoldReports threeReports) threeDisk
  ⟨threeDisk_unobstructed, hc, scaffoldReports_missing_only threeDisk_unobstructed hc⟩

/-- No path of a template has two dots, and no temporary is found or is the path of a template. -/
def LooksFree (d : Disk) (templates : List FileTemplate) : Prop :=
  ∀ t ∈ templates, .up ∉ Path.parts t.path ∧ d.isPresent (temporaryPath t.path) = false ∧
    ∀ s ∈ templates, s.path ≠ temporaryPath t.path

instance (d : Disk) (templates : List FileTemplate) : Decidable (LooksFree d templates) :=
  inferInstanceAs (Decidable (∀ t ∈ templates, _ ∧ _ ∧ ∀ s ∈ templates, _))

def detourDisk : Disk :=
  ⟨[(["d"], .directory), (["f", "d"], .file "keep".toUTF8), (["l"], .link "m/../d")]⟩

def danglingDisk : Disk := ⟨[(["f.tmp"], .link "g")]⟩

def aliasDisk : Disk := ⟨[(["d"], .directory), (["l"], .link "d")]⟩

/-- Takes all that is offered. -/
def takeAll : Station := ⟨.plain fun _ => .missing, fun _ items => .ok (List.range items.length)⟩

/-- A file is written over, a file is made that is no template, and the file of one source is lost to
the next one. -/
theorem links_let_files_change :
    (LooksFree detourDisk (report ["m/f", "l/f"]).templates ∧
      detourDisk.read "d/f" = .ok "keep".toUTF8 ∧
      ((scaffoldReports [report ["m/f", "l/f"]]).run takeAll detourDisk).disk.read "d/f" =
        .ok "new".toUTF8) ∧
    (LooksFree danglingDisk (report ["f"]).templates ∧ danglingDisk.read "g" = .error .notFound ∧
      ((scaffoldReports [report ["f"]]).run takeAll danglingDisk).disk.read "g" =
        .ok "new".toUTF8) ∧
    LooksFree aliasDisk [template "l/f.tmp", template "d/f"] ∧
      ((scaffoldReports [report ["l/f.tmp"]]).run takeAll aliasDisk).disk.read "l/f.tmp" =
        .ok "new".toUTF8 ∧
      ((scaffoldReports [report ["l/f.tmp"], report ["d/f"]]).run takeAll aliasDisk).disk.read
        "l/f.tmp" = .error .notFound := by
  refine ⟨⟨by decide +kernel, by decide +kernel, by decide +kernel⟩,
    ⟨by decide +kernel, by decide +kernel, by decide +kernel⟩,
    by decide +kernel, by decide +kernel, by decide +kernel⟩

end Plain

end NavTree
