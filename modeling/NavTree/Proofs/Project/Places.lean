import Mathlib.Data.List.Nodup
import NavTree.Proofs.Files.Edit
import NavTree.Proofs.Project.Produced

/-! # Places of a compilation

Generated files and their temporaries stand side by side where the names in the directory of the
source stand. As long as that directory is there and no link is in the place of a temporary, the
file operations of an installation edit these places and no others.
-/
namespace NavTree

open NavTree.Path (IsName)

variable {old d e : Disk} {source p q : String} {places : List Location}

/-- The directory of a source is there, and no link stands where its files are staged. -/
structure Prepared (old : Disk) (source : String) : Prop where
  directory : old.isDirectory (Path.outputDirectory source) = true
  unlinked : ∀ p ∈ targetPaths source, ∀ target,
    old.at? (old.place (temporaryPath p)) ≠ some (.link target)

/-- Where the names in the directory of a source stand. -/
def sourceHome (old : Disk) (source : String) : Location := old.home (Path.outputDirectory source)

/-- A generated file and its temporary are names in the directory of the source. -/
theorem target_names (h : p ∈ targetPaths source) : ∃ n ∈ artifactNames, IsName n ∧
    IsName (n ++ ".tmp") ∧ p = Path.join (Path.outputDirectory source) n ∧
    temporaryPath p = Path.join (Path.outputDirectory source) (n ++ ".tmp") := by
  obtain ⟨n, hn, rfl⟩ := exists_of_mem_targetPaths h
  have hname := isName_of_mem_artifactNames hn
  exact ⟨n, hn, hname, .ending (.inr hname), rfl, Path.temporaryPath_join source hname⟩

theorem route_target (h : p ∈ targetPaths source) :
    ∃ front n, Path.route p = ⟨front ++ [.name n], false⟩ := by
  obtain ⟨n, -, hn, -, rfl, -⟩ := target_names h
  exact ⟨_, n, Path.route_join _ hn⟩

theorem targetPaths_nodup (source : String) : (targetPaths source).Nodup := by
  refine List.Nodup.map_on (fun n hn m hm he => ?_) (by decide)
  have hname := congrArg Path.fileName? he
  rw [Path.fileName?_join _ (isName_of_mem_artifactNames hn),
    Path.fileName?_join _ (isName_of_mem_artifactNames hm)] at hname
  exact Option.some.inj hname

theorem artifactName_ne_ending {n m : String} (hn : n ∈ artifactNames) (hm : m ∈ artifactNames) :
    n ≠ m ++ ".tmp" := by
  have hall : ∀ n ∈ artifactNames, ∀ m ∈ artifactNames, n ≠ m ++ ".tmp" := by decide
  exact hall n hn m hm

theorem place_ne_temporary (old : Disk) (hp : p ∈ targetPaths source) (hq : q ∈ targetPaths source) :
    old.place p ≠ old.place (temporaryPath q) := by
  obtain ⟨n, hn, hname, -, rfl, -⟩ := target_names hp
  obtain ⟨m, hm, -, hending, -, ht⟩ := target_names hq
  rw [ht, old.place_join _ hname, old.place_join _ hending]
  exact fun he => artifactName_ne_ending hn hm (List.cons.inj he).1

theorem place_target_inj (old : Disk) (hp : p ∈ targetPaths source) (hq : q ∈ targetPaths source)
    (h : old.place p = old.place q) : p = q := by
  obtain ⟨n, -, hn, -, rfl, -⟩ := target_names hp
  obtain ⟨m, -, hm, -, rfl, -⟩ := target_names hq
  rw [old.place_join _ hn, old.place_join _ hm, List.cons.injEq] at h
  rw [h.1]

theorem place_temporary_inj (old : Disk) (hp : p ∈ targetPaths source) (hq : q ∈ targetPaths source)
    (h : old.place (temporaryPath p) = old.place (temporaryPath q)) : p = q := by
  obtain ⟨n, -, -, hn, rfl, hpt⟩ := target_names hp
  obtain ⟨m, -, -, hm, rfl, hqt⟩ := target_names hq
  rw [hpt, hqt, old.place_join _ hn, old.place_join _ hm, List.cons.injEq,
    String.append_left_inj] at h
  rw [h.1]

/-- A staged text is taken away from its place, or it cannot be removed. -/
theorem remove_temporary (h : Disk.Stays old places e) (p : String)
    (hm : old.place (temporaryPath p) ∈ places) :
    (∃ fault, ∀ d, Disk.Alike e d (temporaryPath p) → d.remove (temporaryPath p) = .error fault) ∨
    old.place (temporaryPath p) ∈ old.changeable places ∧
      ∀ d, Disk.Alike e d (temporaryPath p) →
        d.remove (temporaryPath p) = .ok (d.edit (old.place (temporaryPath p), none)) := by
  obtain ⟨front, hr, -⟩ := Path.route_temporaryPath p
  exact (Disk.remove_eq hr h.toOver).imp_right fun ⟨hd, hw⟩ => ⟨h.mem_changeable hm hd, hw⟩

namespace Prepared

variable (hprep : Prepared old source)
include hprep

/-- The directory stays one while nothing on the way to it changes. -/
theorem isDirectory (h : Disk.Stays old places e)
    (hway : ∀ l ∈ old.looks (Path.outputDirectory source), l ∉ old.changeable places) :
    e.isDirectory (Path.outputDirectory source) = true := by
  have hlooks : Disk.Alike old e (Path.outputDirectory source) :=
    Disk.alike_of_looks fun l hl => h.elsewhere (hway l hl)
  rw [hlooks.isDirectory, hprep.directory]

/-- A temporary that can be created is found at its place, where no directory stands. -/
theorem find_make (h : Disk.Stays old places e) (hp : p ∈ targetPaths source)
    (hm : old.place (temporaryPath p) ∈ places) {spot : Disk.Spot}
    (hf : e.find .make (temporaryPath p) = .ok spot)
    (hentry : spot.entry = none ∨ ∃ c, spot.entry = some (.file c)) :
    spot.location = old.place (temporaryPath p) ∧
      old.place (temporaryPath p) ∈ old.changeable places := by
  obtain ⟨front, hr, -⟩ := Path.route_temporaryPath p
  obtain ⟨hloc, he, -⟩ := Disk.find_make hr h.toOver hf (h.not_link (hprep.unlinked p hp))
  have hd : e.at? (old.place (temporaryPath p)) ≠ some .directory := by
    rw [← he]
    rcases hentry with hn | ⟨c, hc⟩
    · simp [hn]
    · simp [hc]
  exact ⟨hloc, h.mem_changeable hm hd⟩

/-- A temporary is created by putting an empty file at its place, or it cannot be created. -/
theorem create (h : Disk.Stays old places e) (hp : p ∈ targetPaths source)
    (hm : old.place (temporaryPath p) ∈ places) :
    (∃ fault, ∀ d, Disk.Alike e d (temporaryPath p) → d.create (temporaryPath p) = .error fault) ∨
    old.place (temporaryPath p) ∈ old.changeable places ∧
      ∀ d, Disk.Alike e d (temporaryPath p) → d.create (temporaryPath p) =
        .ok (old.place (temporaryPath p), d.edit (old.place (temporaryPath p), some .empty)) := by
  refine (Disk.create_eq e (temporaryPath p)).imp_right ?_
  rintro ⟨spot, hf, hentry, hw⟩
  obtain ⟨hloc, hc⟩ := hprep.find_make h hp hm hf hentry
  exact ⟨hc, hloc ▸ hw⟩

/-- A text is staged by putting it at the place of the temporary, or it cannot be written. -/
theorem write (h : Disk.Stays old places e) (hp : p ∈ targetPaths source)
    (hm : old.place (temporaryPath p) ∈ places) (content : ByteArray) :
    (∃ fault, ∀ d, Disk.Alike e d (temporaryPath p) →
      d.write (temporaryPath p) content = .error fault) ∨
    old.place (temporaryPath p) ∈ old.changeable places ∧
      ∀ d, Disk.Alike e d (temporaryPath p) → d.write (temporaryPath p) content =
        .ok (d.edit (old.place (temporaryPath p), some content)) := by
  refine (Disk.write_eq e (temporaryPath p) content).imp_right ?_
  rintro ⟨spot, hf, hentry, hw⟩
  obtain ⟨hloc, hc⟩ := hprep.find_make h hp hm hf hentry
  exact ⟨hc, hloc ▸ hw⟩

/-- A staged text is installed by putting it at the place of its target and taking it away from its
own, or it cannot be moved. -/
theorem rename (h : Disk.Stays old places e) (hp : p ∈ targetPaths source)
    (hm : old.place (temporaryPath p) ∈ places) (hm' : old.place p ∈ places)
    (hd : e.at? (old.place (temporaryPath p)) ≠ some .directory) :
    (∃ fault, ∀ d, Disk.Alike e d (temporaryPath p) → Disk.Alike e d p →
      d.rename (temporaryPath p) p = .error fault) ∨
    ∃ c, e.at? (old.place (temporaryPath p)) = some (.file c) ∧
      (∀ x ∈ [(old.place p, some c), (old.place (temporaryPath p), none)],
        x.1 ∈ old.changeable places) ∧
      ∀ d, Disk.Alike e d (temporaryPath p) → Disk.Alike e d p → d.rename (temporaryPath p) p =
        .ok (d.edits [(old.place p, some c), (old.place (temporaryPath p), none)]) := by
  obtain ⟨front, hr, -⟩ := Path.route_temporaryPath p
  obtain ⟨front', n, hr'⟩ := route_target hp
  refine (Disk.rename_eq hr hr' h.toOver (place_ne_temporary old hp hp) hd
    (h.not_link (hprep.unlinked p hp))).imp_right ?_
  rintro ⟨c, hc, hd', hw⟩
  refine ⟨c, hc, ?_, hw⟩
  intro x hx
  rcases List.mem_pair.mp hx with rfl | rfl
  · exact h.mem_changeable hm' hd'
  · exact h.mem_changeable hm hd

end Prepared

end NavTree
