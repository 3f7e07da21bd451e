import NavTree.Code.Declaration
import NavTree.Proofs.Appearance

/-! # Merged imports

Collected imports become one named import for each module, in the order in which the modules first
appear; it lists each symbol of its module once, in the order in which these first appear.
-/
namespace NavTree

namespace Imports

/-- What is asked for from a module, in this order and with repetitions. -/
def symbolsFrom (source : String) (l : List Import) : List String :=
  (l.filter (·.source = source)).map (·.symbol)

variable {i : Import} {l l' : List Import} {sources : List String}

theorem mem_symbolsFrom : i.symbol ∈ symbolsFrom i.source l ↔ i ∈ l := by
  rw [symbolsFrom, List.mem_map]
  constructor
  · rintro ⟨j, hj, hsymbol⟩
    obtain ⟨hj, hsource⟩ := List.mem_filter.mp hj
    cases i
    cases j
    simp_all
  · exact fun h => ⟨i, List.mem_filter.mpr ⟨h, by simp⟩, rfl⟩

theorem symbolsFrom_eq_nil {source : String} (h : source ∉ l.map (·.source)) :
    symbolsFrom source l = [] := by
  rw [symbolsFrom, List.filter_eq_nil_iff.mpr, List.map_nil]
  intro j hj
  simpa using fun he => h (List.mem_map.mpr ⟨j, hj, he⟩)

/-- An import at the end is one more symbol for its own module. -/
theorem symbolsFrom_concat (source : String) (l : List Import) (i : Import) :
    symbolsFrom source (l ++ [i]) =
      if source = i.source then symbolsFrom source l ++ [i.symbol] else symbolsFrom source l := by
  split
  · next h => simp [symbolsFrom, h]
  · next h => simp [symbolsFrom, Ne.symm h]

/-- An import is added to its own module, which comes last if it is new. -/
theorem addTo_map (h : sources.Nodup) {symbols : String → List String}
    (hnew : i.source ∉ sources → symbols i.source = []) :
    addTo i (sources.map fun s => (s, symbols s)) =
      (if i.source ∈ sources then sources else sources ++ [i.source]).map fun s =>
        (s, if s = i.source ∧ i.symbol ∉ symbols s then symbols s ++ [i.symbol]
          else symbols s) := by
  induction sources with
  | nil => simp [addTo, hnew]
  | cons source rest ih =>
    obtain ⟨hsource, hrest⟩ := List.nodup_cons.mp h
    rw [List.map_cons, addTo]
    split
    · next he =>
      have hothers : ∀ s ∈ rest, s ≠ i.source := fun s hs hi => hsource (he ▸ hi ▸ hs)
      have hkept : (rest.map fun s => (s, if s = i.source ∧ i.symbol ∉ symbols s
          then symbols s ++ [i.symbol] else symbols s)) = rest.map fun s => (s, symbols s) :=
        List.map_congr_left fun s hs => by simp [hothers s hs]
      have hmem : i.source ∈ source :: rest := he ▸ List.mem_cons_self
      rw [if_pos hmem, List.map_cons, hkept]
      simp [he]
    · next hne =>
      have hmem : i.source ∈ source :: rest ↔ i.source ∈ rest := by simp [Ne.symm hne]
      rw [ih hrest (hnew ∘ mt hmem.mp)]
      by_cases hi : i.source ∈ rest <;> simp [hne, hi, Ne.symm hne]

theorem modules_ofList (l : List Import) : (ofList l).modules =
    (l.map (·.source)).eraseDups.map fun source => (source, (symbolsFrom source l).eraseDups) := by
  induction l using List.reverseRecOn with
  | nil => rfl
  | append_singleton l i ih =>
    have hadd : (ofList (l ++ [i])).modules = addTo i (ofList l).modules := by
      simp [ofList, add]
    have hnew : i.source ∉ (l.map (·.source)).eraseDups →
        (symbolsFrom i.source l).eraseDups = [] := fun h => by
      rw [symbolsFrom_eq_nil (mt List.mem_eraseDups.mpr h), List.eraseDups_nil]
    have hsources : ((l ++ [i]).map (·.source)).eraseDups =
        if i.source ∈ (l.map (·.source)).eraseDups then (l.map (·.source)).eraseDups
        else (l.map (·.source)).eraseDups ++ [i.source] := by
      simp only [List.map_append, List.map_cons, List.map_nil, eraseDups_concat,
        List.mem_eraseDups]
    rw [hadd, ih, addTo_map (nodup_eraseDups _) hnew, hsources]
    refine List.map_congr_left fun source _ => Prod.ext rfl ?_
    rw [symbolsFrom_concat]
    by_cases hs : source = i.source
    · simp [hs, eraseDups_concat]
    · simp [hs]

theorem modules_inj {is is' : Imports} : is.modules = is'.modules ↔ is = is' := by
  cases is
  cases is'
  simp

/-- The order among imports of different modules is forgotten, but for which module comes first. -/
theorem ofList_eq_iff : ofList l = ofList l' ↔
    (l.map (·.source)).eraseDups = (l'.map (·.source)).eraseDups ∧
      ∀ source, (symbolsFrom source l).eraseDups = (symbolsFrom source l').eraseDups := by
  rw [← modules_inj, modules_ofList, modules_ofList]
  constructor
  · intro h
    have hsources : (l.map (·.source)).eraseDups = (l'.map (·.source)).eraseDups := by
      simpa [Function.comp_def] using congrArg (List.map (·.1)) h
    refine ⟨hsources, fun source => ?_⟩
    rw [← hsources] at h
    by_cases hm : source ∈ (l.map (·.source)).eraseDups
    · exact congrArg (·.2) (List.map_inj_left.mp h source hm)
    · have hm' := hsources ▸ hm
      rw [symbolsFrom_eq_nil (mt List.mem_eraseDups.mpr hm),
        symbolsFrom_eq_nil (mt List.mem_eraseDups.mpr hm')]
  · rintro ⟨hsources, hsymbols⟩
    rw [hsources]
    exact List.map_congr_left fun source _ => Prod.ext rfl (hsymbols source)

theorem add_of_mem (h : i ∈ l) : (ofList l).add i = ofList l := by
  have hadd : (ofList l).add i = ofList (l ++ [i]) := by simp [ofList]
  rw [hadd, ofList_eq_iff, List.map_append, List.map_singleton, eraseDups_concat,
    if_pos (List.mem_map.mpr ⟨i, h, rfl⟩)]
  refine ⟨rfl, fun source => ?_⟩
  rw [symbolsFrom_concat]
  split
  · next hs => rw [eraseDups_concat, if_pos (hs ▸ mem_symbolsFrom.mpr h)]
  · rfl

/-- One named import for each module, modules and symbols in the order of their first appearance.
An import that comes again adds nothing. -/
theorem ofList_merges (l : List Import) :
    (ofList l).declarations = (l.map (·.source)).eraseDups.map (fun source =>
      .namedImport (symbolsFrom source l).eraseDups source) ∧
    (∀ i ∈ l, ∀ later, ofList (l ++ i :: later) = ofList (l ++ later)) ∧
    ∀ l', ofList l = ofList l' ↔
      (l.map (·.source)).eraseDups = (l'.map (·.source)).eraseDups ∧
        ∀ source, (symbolsFrom source l).eraseDups = (symbolsFrom source l').eraseDups := by
  refine ⟨?_, fun i hi later => ?_, fun l' => ofList_eq_iff⟩
  · rw [declarations, modules_ofList, List.map_map]
    rfl
  · have happend : ∀ rest, ofList (l ++ rest) = rest.foldl add (ofList l) := fun rest =>
      List.foldl_append ..
    rw [happend, happend, List.foldl_cons, add_of_mem hi]

/-- An import comes again, behind one of another module. -/
theorem shared_module_merges :
    let first : List Import := [⟨"A", "./a"⟩, ⟨"B", "./b"⟩]
    let again : Import := ⟨"A", "./a"⟩
    let later : List Import := [⟨"C", "./a"⟩]
    again ∈ first ∧ ofList (first ++ again :: later) = ofList (first ++ later) ∧
      (ofList (first ++ later)).declarations =
        [.namedImport ["A", "C"] "./a", .namedImport ["B"] "./b"] := by
  intro first again later
  have hagain : again ∈ first := by decide
  exact ⟨hagain, (ofList_merges first).2.1 again hagain later,
    (ofList_merges (first ++ later)).1.trans (by decide +kernel)⟩

end Imports

end NavTree
