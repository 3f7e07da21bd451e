import NavTree.Proofs.Project.Credited
import NavTree.Proofs.Tree.Linked

/-! # Files that replace each other

Whether a file is missing is asked before any is made, and two screens may have one path. The files
that were chosen for the screens of a tree hold their texts afterwards exactly if those at one place
have one text; otherwise the last of them has replaced the others.
-/
namespace NavTree

variable {old new : Disk} {templates files : List FileTemplate} {picks : List Nat}
  {created : List String} {station : Station} {t : FileTemplate} {format : Formatter}

/-- Files that are all made hold their texts exactly if none shares its place with another text. -/
theorem Midway.read_iff (h : Midway format old old templates files new)
    (hl : Linkless old templates) :
    (∀ t ∈ files, new.read t.path = .ok (t.text format).toUTF8) ↔
      ∀ s ∈ files, ∀ t ∈ files, old.place s.path = old.place t.path →
        s.text format = t.text format := by
  constructor
  · intro hread s hs t ht hplace
    obtain ⟨-, content, hhas⟩ := h.held hl s hs
    obtain ⟨-, content', hhas'⟩ := h.held hl t ht
    have hsame : content = content' := by
      have hat := hhas.at?
      rw [hplace, hhas'.at?] at hat
      exact (Entry.file.inj (Option.some.inj hat)).symm
    have hleft : (s.text format).toUTF8 = content :=
      Except.ok.inj ((hread s hs).symm.trans hhas.read)
    have hright : (t.text format).toUTF8 = content' :=
      Except.ok.inj ((hread t ht).symm.trans hhas'.read)
    exact String.toByteArray_inj.mp (hleft.trans (hsame.trans hright.symm))
  · intro hsame t ht
    obtain ⟨hv, content, hhas⟩ := h.held hl t ht
    rcases h.gains (old.place t.path) with (he | ⟨-, hd⟩) | ⟨-, held, hm, hf⟩
    · exact absurd (he ▸ hhas.at?) hv.not_file
    · simp [hhas.at?] at hd
    · obtain ⟨s, hs, he⟩ := List.mem_map.mp hm
      obtain ⟨hplace, rfl⟩ := Prod.mk.inj he
      rw [hhas.at?] at hf
      obtain rfl := Entry.file.inj (Option.some.inj hf)
      rw [← hsame s hs t ht hplace]
      exact hhas.read

namespace Job

/-- Scaffolding that succeeds has made all the chosen files. -/
theorem scaffold_made (h : Unobstructed old templates)
    (hp : picked station (offered old templates) = .ok picks)
    (hok : (ends station (scaffold templates) old).1 = .ok created) :
    created = (chosen (offered old templates) picks).map (·.path) ∧
      Midway station.format old old templates (chosen (offered old templates) picks)
        (ends station (scaffold templates) old).2 := by
  rw [ends_scaffold] at hok ⊢
  by_cases hnone : offered old templates = []
  · rw [if_pos (List.isEmpty_iff.mpr hnone)] at hok ⊢
    have hchosen : chosen (offered old templates) picks = [] := by
      rw [hnone]
      exact List.filterMap_eq_nil_iff.mpr fun _ _ => rfl
    rw [hchosen]
    exact ⟨(Except.ok.inj hok).symm, .refl h.tree⟩
  · rw [if_neg fun he => hnone (List.isEmpty_iff.mp he), hp] at hok ⊢
    have hoffered : ∀ t ∈ offered old templates, t ∈ templates ∧ old.isPresent t.path = false := by
      simp [offered]
    obtain ⟨result, new, he, hends⟩ := create_ends station h ⟨h.tree, .refl old _⟩
      hoffered (.refl h.tree) (List.nil_subset _) picks
    dsimp only at hok ⊢
    rw [he] at hok ⊢
    obtain rfl : result = .ok created := hok
    cases hends with
    | made hm => exact ⟨rfl, hm⟩

end Job

/-- Scaffolding that succeeds for the screens of a tree lists what was chosen, and each chosen file
holds its text exactly if those that are chosen for one place have one text. -/
theorem Tree.scaffold_read_iff (tree : Tree) (base : String)
    (ht : templates = fileTemplates tree.flatten.screens base)
    (hf : files = Job.chosen (Job.offered old templates) picks)
    (h : Unobstructed old templates) (hl : Linkless old templates)
    (hp : Job.picked station (Job.offered old templates) = .ok picks)
    (hends : Job.ends station (Job.scaffold templates) old = (.ok created, new)) :
    created = files.map (·.path) ∧
    ((∀ t ∈ files, new.read t.path = .ok (t.text station.format).toUTF8) ↔
      ∀ s ∈ files, ∀ t ∈ files, old.place s.path = old.place t.path →
        s.text station.format = t.text station.format) := by
  subst ht hf
  obtain ⟨hcreated, hm⟩ := Job.scaffold_made h hp (congrArg Prod.fst hends)
  rw [hends] at hm
  exact ⟨hcreated, hm.read_iff hl⟩

namespace Plain

def namedScreenJson (name path : String) : Json :=
  .object [("_tag", .string "Screen"), ("name", .string name), ("path", .string path)]

/-- Two screens with paths of their own, for each of which a file with its name is to be made. -/
def namedJson (path path' : String) : Json :=
  .object [
    ("config", .object [("path", .string "src"),
      ("template", .object [("f", .string "\x7b\x7bcomponent.name\x7d\x7d")])]),
    ("navigators", .array [navigatorJson "App" true
      [namedScreenJson "A" path, namedScreenJson "B" path']])]

def namedConfig : Config := ⟨"src", true, some [("f", "\x7b\x7bcomponent.name\x7d\x7d")]⟩

def namedHead : NavigatorHead := { head "App" true none with config := namedConfig }

def namedScreen (name path : String) : Screen :=
  { screen name namedHead.trail with path := some path, config := namedConfig }

def namedTree (path path' : String) : Tree :=
  ⟨namedConfig, [], [⟨namedHead, [.screen (namedScreen "A" path), .screen (namedScreen "B" path')]⟩]⟩

def namedTemplates (path path' : String) : List FileTemplate :=
  fileTemplates (namedTree path path').flatten.screens "."

/-- What taking all of them comes to where nothing is yet. -/
def namedEnds (path path' : String) : Except ProjectFault (List String) × Disk :=
  Job.ends takeAll (Job.scaffold (namedTemplates path path')) ⟨[]⟩

theorem namedTemplates_unobstructed : Unobstructed ⟨[]⟩ (namedTemplates "a" "b") where
  tree := Disk.isTree_of_entries (by simp)
  free := by decide +kernel
  clear := by decide +kernel
  direct := by decide +kernel

theorem apart_scaffold_read_iff :
    Unobstructed ⟨[]⟩ (namedTemplates "a" "b") ∧ Linkless ⟨[]⟩ (namedTemplates "a" "b") ∧
    Job.picked takeAll (Job.offered ⟨[]⟩ (namedTemplates "a" "b")) = .ok [0, 1] ∧
    namedEnds "a" "b" = (.ok ["./a/f", "./b/f"], (namedEnds "a" "b").2) ∧
    ∀ t ∈ namedTemplates "a" "b",
      (namedEnds "a" "b").2.read t.path = .ok (t.text takeAll.format).toUTF8 := by
  have hl : Linkless ⟨[]⟩ (namedTemplates "a" "b") :=
    fun _ _ => Disk.not_link_of_entries (d := ⟨[]⟩) (by simp) _
  have hp : Job.picked takeAll (Job.offered ⟨[]⟩ (namedTemplates "a" "b")) = .ok [0, 1] := by
    decide +kernel
  have hends : namedEnds "a" "b" = (.ok ["./a/f", "./b/f"], (namedEnds "a" "b").2) :=
    Prod.ext (by decide +kernel) rfl
  have hf : namedTemplates "a" "b" =
      Job.chosen (Job.offered ⟨[]⟩ (namedTemplates "a" "b")) [0, 1] := by
    decide +kernel
  obtain ⟨-, hread⟩ :=
    (namedTree "a" "b").scaffold_read_iff "." rfl hf namedTemplates_unobstructed hl hp hends
  exact ⟨namedTemplates_unobstructed, hl, hp, hends, hread.mpr (by decide +kernel)⟩

/-- Both files are made at one path, and the second one takes the place of the first. -/
theorem shared_path_replaced :
    Tree.ofJson (namedJson "x" "x") = .ok (namedTree "x" "x") ∧
    (namedTemplates "x" "x").map (fun t => (t.path, t.text takeAll.format)) =
      [("./x/f", "A"), ("./x/f", "B")] ∧
    Job.picked takeAll (Job.offered ⟨[]⟩ (namedTemplates "x" "x")) = .ok [0, 1] ∧
    (namedEnds "x" "x").1 = .ok ["./x/f", "./x/f"] ∧
    (namedEnds "x" "x").2.read "./x/f" = .ok "B".toUTF8 :=
  ⟨rfl, by decide +kernel⟩

end Plain

end NavTree
