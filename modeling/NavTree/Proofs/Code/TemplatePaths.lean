import NavTree.Code.Template
import NavTree.Proofs.Files.Beside
import NavTree.Proofs.Tree.Linked

/-! # Paths of file templates

The path of a template joins three texts: the directory it is rendered for, the import path of the
screen and the name that the pattern gives. The result is below the directory unless the import path
is empty, for then the slash behind it leads the title and makes it absolute.
-/
namespace NavTree

namespace Path

variable {p q : String}

theorem steps_of_relative (h : isAbsolute p = false) : steps p = stepsOf (pieces p.toList) := by
  rw [steps_eq, h]
  rfl

theorem isAbsolute_append (h : p ≠ "") (q : String) : isAbsolute (p ++ q) = isAbsolute p := by
  rw [isAbsolute, isAbsolute, String.toList_append]
  cases hp : p.toList with
  | nil => exact absurd (String.toList_eq_nil_iff.mp hp) h
  | cons c cs => rfl

theorem steps_append_slash (hp : p ≠ "") (hq : isAbsolute q = false) :
    steps (p ++ "/" ++ q) = steps p ++ steps q := by
  have htext : (p ++ "/" ++ q).toList = p.toList ++ '/' :: q.toList := by
    simp [String.toList_append]
  have hlead : isAbsolute (p ++ "/" ++ q) = isAbsolute p := by
    rw [String.append_assoc, isAbsolute_append hp]
  rw [steps_eq, hlead, htext, pieces_append_slash, stepsOf_append, steps_eq p,
    steps_of_relative hq, List.append_assoc]

/-- A relative path that is joined to another one goes on from where that one ends. -/
theorem steps_join_relative (base : String) (h : isAbsolute p = false) :
    steps (join base p) = steps base ++ steps p := by
  by_cases hb : base = ""
  · subst hb
    rw [join, if_pos (.inr rfl)]
    rfl
  rw [join, if_neg (by simp [h, hb])]
  split
  · next hslash =>
    obtain ⟨front, hf⟩ := List.getLast?_eq_some_iff.mp hslash
    have hbase : stepsOf (pieces base.toList) = stepsOf (pieces front) := by
      rw [hf, pieces_append_slash, stepsOf_append, pieces, stepsOf_cons_idle rfl]
      exact List.append_nil _
    have htext : (base ++ p).toList = front ++ '/' :: p.toList := by
      rw [String.toList_append, hf, List.append_assoc]
      rfl
    rw [steps_eq, isAbsolute_append hb, htext, pieces_append_slash, stepsOf_append, steps_eq base,
      hbase, steps_of_relative h, List.append_assoc]
  · exact steps_append_slash hb h

/-- A path that starts nowhere but where it is taken from, and does not lead out of there. -/
structure Inward (p : String) : Prop where
  relative : isAbsolute p = false
  noUp : .up ∉ parts p

theorem Inward.steps_names (h : Inward p) : ∀ part ∈ steps p, ∃ n, part = .name n := by
  intro part hpart
  have hnoUp : part ≠ .up := by
    rintro rfl
    rw [steps_eq_filter] at hpart
    exact h.noUp (List.mem_of_mem_filter hpart)
  rw [steps_of_relative h.relative, stepsOf] at hpart
  obtain ⟨piece, hpiece, rfl⟩ := List.mem_map.mp hpart
  have hidle : piece ≠ ['.'] := by
    rintro rfl
    simp [isIdle] at hpiece
  rw [partOf, if_neg hidle] at hnoUp ⊢
  split
  · next he => exact absurd (if_pos he) hnoUp
  · exact ⟨_, rfl⟩

/-- Behind the steps of a directory a path goes through names alone, at least one. -/
def Below (base p : String) : Prop :=
  ∃ inner, steps p = steps base ++ inner ∧ inner ≠ [] ∧ ∀ part ∈ inner, ∃ n, part = .name n

theorem not_below_of_absolute (hp : isAbsolute p = true) (hq : steps q ≠ [])
    (hr : isAbsolute q = false) : ¬ Below q p := by
  rintro ⟨inner, hs, -⟩
  rw [steps_eq p, hp, steps_of_relative hr] at hs
  rw [steps_of_relative hr] at hq
  obtain ⟨part, rest, hsteps⟩ := List.exists_cons_of_ne_nil hq
  rw [hsteps] at hs
  have hroot : part = .root := (List.cons.inj hs).1.symm
  have hm : part ∈ stepsOf (pieces q.toList) := by simp [hsteps]
  obtain ⟨piece, -, he⟩ := List.mem_map.mp hm
  rw [hroot, partOf] at he
  split at he
  · cases he
  split at he <;> cases he

end Path

namespace Screen

variable {s : Screen} {entry : String × String}

/-- The name that a pattern gives to the file of a screen. -/
def templateName (s : Screen) (pattern : String) : String := interpolate pattern s.importSpecifier

/-- The file that one pattern and its content ask for. -/
def fileTemplate (s : Screen) (base : String) (entry : String × String) : FileTemplate :=
  let title := s.importPath ++ "/" ++ s.templateName entry.1
  ⟨title, Path.join base title, interpolate entry.2 s.importSpecifier⟩

theorem fileTemplates_eq (s : Screen) (base : String) :
    s.fileTemplates base = (s.config.template.getD []).map (s.fileTemplate base) := rfl

theorem steps_fileTemplate (base : String) (hp : s.importPath ≠ "")
    (hpath : Path.Inward s.importPath) (hname : Path.Inward (s.templateName entry.1)) :
    Path.steps (s.fileTemplate base entry).path =
      Path.steps base ++ (Path.steps s.importPath ++ Path.steps (s.templateName entry.1)) := by
  have hrelative : Path.isAbsolute (s.importPath ++ "/" ++ s.templateName entry.1) = false := by
    rw [String.append_assoc, Path.isAbsolute_append hp, hpath.relative]
  rw [fileTemplate, Path.steps_join_relative base hrelative,
    Path.steps_append_slash hp hname.relative]

/-- Without an import path a slash leads the title, and the directory is left out. -/
theorem fileTemplate_absolute (base : String) (hp : s.importPath = "") :
    Path.isAbsolute (s.fileTemplate base entry).path = true := by
  have habsolute : Path.isAbsolute ("" ++ "/" ++ s.templateName entry.1) = true := by
    rw [String.append_assoc, String.empty_append, Path.isAbsolute_append (by decide)]
    rfl
  rw [fileTemplate, hp]
  dsimp only
  rw [Path.join, if_pos (.inl habsolute), habsolute]

/-- If neither the import path nor the name leads outward, the file of a template is below every
directory that it is rendered for exactly if the import path is not empty and one of the two names
something. -/
theorem fileTemplate_below_iff (hentry : entry ∈ s.config.template.getD [])
    (hpath : Path.Inward s.importPath) (hname : Path.Inward (s.templateName entry.1)) :
    (∀ base, s.fileTemplate base entry ∈ s.fileTemplates base) ∧
    ((∀ base, Path.Below base (s.fileTemplate base entry).path) ↔ s.importPath ≠ "" ∧
      (Path.steps s.importPath ≠ [] ∨ Path.steps (s.templateName entry.1) ≠ [])) := by
  refine ⟨fun base => s.fileTemplates_eq base ▸ List.mem_map_of_mem hentry, fun h => ?_, ?_⟩
  · have hp : s.importPath ≠ "" := by
      intro hp
      exact Path.not_below_of_absolute (fileTemplate_absolute "d" hp) (by decide) (by decide) (h "d")
    refine ⟨hp, ?_⟩
    obtain ⟨inner, hsteps, hne, -⟩ := h ""
    rw [steps_fileTemplate "" hp hpath hname, List.append_cancel_left_eq] at hsteps
    rw [← hsteps] at hne
    by_contra hnone
    rw [not_or, not_not, not_not] at hnone
    exact hne (by rw [hnone.1, hnone.2, List.append_nil])
  · rintro ⟨hp, hsome⟩ base
    refine ⟨_, steps_fileTemplate base hp hpath hname, ?_, ?_⟩
    · rw [Ne, List.append_eq_nil_iff, not_and_or]
      exact hsome
    · exact List.forall_mem_append.mpr ⟨hpath.steps_names, hname.steps_names⟩

end Screen

namespace Plain

/-- Screens with a path of their own and one template. -/
def templatedScreen (path : String) : Screen :=
  { screen "Feed" (head "App" true none).trail with
    path := some path
    config := ⟨"src", true, some [("index.tsx", "x")]⟩ }

theorem templatedScreen_below :
    ("index.tsx", "x") ∈ (templatedScreen "home/Feed").config.template.getD [] ∧
    Path.Inward (templatedScreen "home/Feed").importPath ∧
    Path.Inward ((templatedScreen "home/Feed").templateName "index.tsx") ∧
    ∀ base, Path.Below base
      ((templatedScreen "home/Feed").fileTemplate base ("index.tsx", "x")).path :=
  have hentry : ("index.tsx", "x") ∈ (templatedScreen "home/Feed").config.template.getD [] :=
    List.mem_singleton_self _
  have hpath : Path.Inward (templatedScreen "home/Feed").importPath := ⟨by decide, by decide⟩
  have hname : Path.Inward ((templatedScreen "home/Feed").templateName "index.tsx") :=
    ⟨by decide +kernel, by decide +kernel⟩
  ⟨hentry, hpath, hname,
    (Screen.fileTemplate_below_iff hentry hpath hname).2.mpr ⟨by decide, .inl (by decide)⟩⟩

/-- The path of the screen is empty and leads nowhere, and yet its file is not below the directory. -/
theorem pathless_template_outside :
    ("index.tsx", "x") ∈ (templatedScreen "").config.template.getD [] ∧
    Path.Inward (templatedScreen "").importPath ∧
    Path.Inward ((templatedScreen "").templateName "index.tsx") ∧
    (templatedScreen "").fileTemplates "app" = [⟨"/index.tsx", "/index.tsx", "x"⟩] ∧
    ¬ Path.Below "app" ((templatedScreen "").fileTemplate "app" ("index.tsx", "x")).path :=
  ⟨List.mem_singleton_self _, ⟨by decide, by decide⟩, ⟨by decide +kernel, by decide +kernel⟩,
    by decide +kernel, Path.not_below_of_absolute (by decide +kernel) (by decide) (by decide)⟩

end Plain

end NavTree
