import NavTree.Proofs.Files.Gained
import NavTree.Proofs.Files.Grown
import NavTree.Proofs.Project.Reaches

/-! # Writing a text

What becomes of a text that is written while no file and no link stands at its temporary path. It is
there already, or nothing but directories is made, or it stands where its path was found.
-/
namespace NavTree

variable {old d made new : Disk} {p q text : String} {content : ByteArray} {loc : Location}

namespace Disk

theorem place_ne_temporary {n : String} (hn : Path.fileName? p = some n) :
    old.place p ≠ old.place (temporaryPath p) := by
  rw [place, place, approach_temporaryPath, approach, hn]
  intro he
  have hlen := congrArg String.length (List.cons.inj he).1
  simp [Path.temporaryName, hn] at hlen

/-- Without a link at its place, a path that is read names the file. -/
theorem has_of_read (ho : Over old d) (hl : ∀ target, old.at? (old.place p) ≠ some (.link target))
    (h : d.read p = .ok content) : Has old d p content := by
  obtain ⟨spot, hf, hs⟩ := read_eq_ok.mp h
  obtain ⟨front, n, slashed, hr⟩ := route_of_find hf (.inl (by simp [hs]))
  obtain ⟨b, loc, links, hleads, hn, hend⟩ := leads_of_find hr hf
  have hplace : old.place p = n :: loc := congrArg Way.finish (approach_of_leads hr ho hleads)
  have hnl : ∀ target, d.at? (n :: loc) ≠ some (.link target) :=
    fun target he => hl target (hplace ▸ ho.link he)
  obtain ⟨rfl, hat⟩ := endAt_file hnl hend hs
  rw [Has, find_of_leads hr (find_eq_ok.mp hf).1 hleads hn, hplace, ← hat]
  rfl

/-- A path that names a file does so while the disk grows. -/
theorem Has.grows (h : Has old d p content) (ho : Over old d) {places : List Location}
    (hg : Grows d new places) : ∃ content, Has old new p content := by
  obtain ⟨front, n, hr⟩ := h.route
  obtain ⟨held, hf⟩ := hg.file h.at?
  exact ⟨held, by rw [Has, find_name_keep hr ho h (hg.keeps _), hf]⟩

/-- A text that is written where nothing or a directory stands is put where nothing stood. -/
theorem write_free {front : List PathPart} {n : String}
    (hr : Path.route p = ⟨front ++ [.name n], false⟩) (ho : Over old d)
    (hfree : d.at? (old.place p) = none ∨ d.at? (old.place p) = some .directory)
    (h : d.write p content = .ok new) :
    d.at? (old.place p) = none ∧ new = d.put (old.place p) (.file content) ∧
      Has old new p content := by
  have hl : ∀ target, d.at? (old.place p) ≠ some (.link target) := by
    rcases hfree with he | he <;> simp [he]
  obtain ⟨-, hhas⟩ := write_changes hr ho hl h
  obtain ⟨spot, hf, hfile, hput⟩ := put_of_write.mp h
  obtain ⟨hloc, hentry, -⟩ := find_make hr ho hf hl
  rw [hentry] at hfile
  rcases hfree with he | he
  · exact ⟨he, hloc ▸ hput.symm, hhas⟩
  · simp [he] at hfile

/-- Besides the file that is put somewhere, everything was there before. -/
theorem at?_of_put_file {e : Entry} {l : Location} (hout : isOuter loc = false)
    (he : ∀ c, e ≠ .file c) (h : (d.put loc (.file content)).at? l = some e) : d.at? l = some e := by
  rw [at?_put d loc l _ hout] at h
  split at h
  · exact absurd (Option.some.inj h).symm (he content)
  · exact h

theorem Over.put_file (ho : Over old d) (hout : isOuter loc = false) :
    Over old (d.put loc (.file content)) :=
  ⟨fun h => ho.link (at?_of_put_file hout (by simp) h),
    fun h => ho.directory (at?_of_put_file hout (by simp) h)⟩

theorem keeps_of_put_file (hout : isOuter loc = false) (links : List Location) :
    Keeps (d.put loc (.file content)) d links :=
  ⟨at?_of_put_file hout (by simp), fun _ => at?_of_put_file hout (by simp)⟩

/-- A disk on which a text is new, and only at the place of its path. -/
structure Wrote (old d new : Disk) (p : String) (content : ByteArray) : Prop where
  found : d.find .name p = .ok ⟨old.place p, d.at? (old.place p), true, false⟩
  not_directory : d.at? (old.place p) ≠ some .directory
  at?_eq : ∀ l, new.at? l = if l = old.place p then some (.file content) else d.at? l

namespace Wrote

variable {l : Location} (h : Wrote old d new p content)
include h

theorem at?_place : new.at? (old.place p) = some (.file content) := by rw [h.at?_eq, if_pos rfl]

theorem directory (hd : d.at? l = some .directory) : new.at? l = some .directory := by
  rw [h.at?_eq, if_neg (by rintro rfl; exact h.not_directory hd), hd]

theorem grows (hl : ∀ target, d.at? (old.place p) ≠ some (.link target)) :
    Grows d new [old.place p] := by
  have hother : ∀ {l}, l ≠ old.place p → new.at? l = d.at? l := fun {l} hne => by
    rw [h.at?_eq, if_neg hne]
  refine ⟨fun hm => .inl (hother (by simpa using hm)), h.directory, fun {l} hd => ?_,
    fun {l target} => ?_, fun {l held} hf => ?_⟩
  · by_cases he : l = old.place p
    · simp [he, h.at?_place] at hd
    · exact .inl (hother he ▸ hd)
  · by_cases he : l = old.place p
    · simp [he, h.at?_place, hl target]
    · rw [hother he]
  · by_cases he : l = old.place p
    · exact ⟨content, he ▸ h.at?_place⟩
    · exact ⟨held, (hother he).trans hf⟩

theorem has (ho : Over old d) (hl : ∀ target, d.at? (old.place p) ≠ some (.link target)) :
    Has old new p content := by
  obtain ⟨front, n, hr⟩ := route_of_find_name h.found rfl
  rw [Has, find_name_keep hr ho h.found ((h.grows hl).keeps _), h.at?_place]

theorem isTree (htree : d.IsTree) : new.IsTree := by
  obtain ⟨n, loc, hloc, hd⟩ := exists_around htree h.found h.not_directory
  have hloc : old.place p = n :: loc := hloc
  apply htree.update hd (hloc ▸ h.not_directory)
  exact fun l => hloc ▸ h.at?_eq l

end Wrote

/-- A file that was put where nothing stood is moved to the path of its own. -/
theorem wrote_of_rename (ho : Over old d) (hnone : d.at? (old.place (temporaryPath p)) = none)
    (hhas : Has old (d.put (old.place (temporaryPath p)) (.file content)) (temporaryPath p) content)
    (h : (d.put (old.place (temporaryPath p)) (.file content)).rename (temporaryPath p) p =
      .ok new) : Wrote old d new p content := by
  have hempty : d.at? (old.place (temporaryPath p)) ≠ some .directory := by simp [hnone]
  have hout := isOuter_eq_false hempty
  have hat := fun l => at?_put d (old.place (temporaryPath p)) l (.file content) hout
  obtain ⟨spot, hf, hnamed, hslashed, hd, hnew⟩ := hhas.of_rename h
  obtain ⟨front, n, hr⟩ := route_of_find_name hf hnamed
  rw [hslashed] at hr
  obtain rfl := find_name hr (ho.put_file hout) hf
  have hne : old.place p ≠ old.place (temporaryPath p) :=
    place_ne_temporary (Path.route_named (congrArg Path.Route.parts hr)).1
  refine ⟨find_name_keep hr (ho.put_file hout) hf (keeps_of_put_file hout _), ?_, fun l => ?_⟩
  · rw [hat, if_neg hne] at hd
    exact hd
  · rw [← hnew hne, at?_erase _ _ _ hout, at?_put _ _ _ _ (isOuter_eq_false hd), hat]
    by_cases hl : l = old.place (temporaryPath p)
    · rw [if_pos hl, if_neg (by rw [hl]; exact hne.symm), hl, hnone]
    · rw [if_neg hl, if_neg hl]

/-- A file that was put where nothing stood is taken away again. -/
theorem remove_put (hnone : d.at? (old.place q) = none)
    (hhas : Has old (d.put (old.place q) (.file content)) q content) :
    ∃ new, (d.put (old.place q) (.file content)).remove q = .ok new ∧
      ∀ l, new.at? l = d.at? l := by
  have hempty : d.at? (old.place q) ≠ some .directory := by simp [hnone]
  have hout := isOuter_eq_false hempty
  refine ⟨_, bind_eq_ok.mpr ⟨_, hhas, rfl⟩, fun l => ?_⟩
  rw [at?_erase _ _ _ hout, at?_put _ _ _ _ hout]
  by_cases hl : l = old.place q
  · rw [if_pos hl, hl, hnone]
  · rw [if_neg hl, if_neg hl]

end Disk

namespace Job

variable {station : Station}

theorem parentEnds_unmoved (d : Disk) (p : String) (l : Location) :
    Disk.Unmoved d (parentEnds d p).2 l := by
  rw [parentEnds]
  split
  · exact (Disk.makeDirectories_changes d _).elsewhere (by simp)
  · exact .inl rfl

theorem isTree_parentEnds (htree : d.IsTree) (p : String) : (parentEnds d p).2.IsTree := by
  rw [parentEnds]
  split
  · exact @Disk.isTree_makeDirectories d htree _
  · exact @htree

/-- What becomes of a text, and of the disk. -/
inductive WriteEnds (old d : Disk) (p text : String) :
    Except ProjectFault WriteOutcome → Disk → Prop
  | unchanged {held : ByteArray} (h : d.read p = .ok held) : WriteEnds old d p text (.ok .unchanged) d
  | failed {fault : ProjectFault} {new : Disk} (h : ∀ l, new.at? l = (parentEnds d p).2.at? l) :
    WriteEnds old d p text (.error fault) new
  | written {new : Disk} (h : Disk.Wrote old (parentEnds d p).2 new p text.toUTF8) :
    WriteEnds old d p text (.ok .written) new

/-- The text waits beside its target, in the directory that was made for it. -/
def Waits (old d : Disk) (p text : String) (new : Disk) : Prop :=
  ∃ made, parentEnds d p = (.ok (), made) ∧ made.at? (old.place (temporaryPath p)) = none ∧
    new = made.put (old.place (temporaryPath p)) (.file text.toUTF8) ∧
      Disk.Has old new (temporaryPath p) text.toUTF8

section

variable (ho : Disk.Over old (parentEnds d p).2)
  (hfree : (parentEnds d p).2.at? (old.place (temporaryPath p)) = none ∨
    (parentEnds d p).2.at? (old.place (temporaryPath p)) = some .directory)
include ho hfree

theorem stage_waits (text : String) : (stage p text).Reaches station d
    (fun entry new => entry = none ∧ WriteEnds old d p text (.ok .unchanged) new ∨
      entry = some ⟨temporaryPath p, p⟩ ∧ Waits old d p text new)
    fun fault new => WriteEnds old d p text (.error fault) new := by
  obtain ⟨front, hroute, -⟩ := Path.route_temporaryPath p
  refine stage_rule (fun hheld => .inl ⟨rfl, ?_⟩) (fun _ {fault made} hmade => ?_)
    (fun _ {made new} hmade hwrite => .inr ⟨rfl, made, hmade, ?_⟩)
    fun _ {fault made new} hmade hwritten => ?_
  · cases hread : d.read p with
    | error fault => simp [holds, hread] at hheld
    | ok held => exact .unchanged hread
  · exact .failed fun l => by rw [hmade]
  · rw [hmade] at ho hfree
    exact Disk.write_free hroute ho hfree hwrite
  · rw [hmade] at ho hfree
    refine .failed fun l => ?_
    rw [hmade]
    rcases hwritten with rfl | ⟨part, hwrite⟩
    · obtain ⟨fault', hremove⟩ := Disk.remove_of_empty hroute ho hfree
      rw [hremove]
      rfl
    · obtain ⟨hnone, rfl, hhas⟩ := Disk.write_free hroute ho hfree hwrite
      obtain ⟨gone, hremove, hat⟩ := Disk.remove_put hnone hhas
      rw [hremove]
      exact hat l

theorem writeText_reaches (text : String) : (writeText p text).Reaches station d
    (fun result new => WriteEnds old d p text (.ok result) new)
    fun fault new => WriteEnds old d p text (.error fault) new := by
  refine (stage_waits ho hfree text).bind fun entry staged hstaged => ?_
  rcases hstaged with ⟨rfl, hends⟩ | ⟨rfl, made, hmade, hnone, rfl, hhas⟩
  · exact .pure hends
  rw [hmade] at ho
  have hcommit : (commit ⟨temporaryPath p, p⟩).Reaches station
      (made.put (old.place (temporaryPath p)) (.file text.toUTF8))
      (fun _ new => WriteEnds old d p text (.ok .written) new)
      fun fault new => WriteEnds old d p text (.error fault) new := by
    refine commit_rule (fun {new} hrename => .written ?_) fun {fault} hrename => .failed fun l => ?_
    · rw [hmade]
      exact Disk.wrote_of_rename ho hnone hhas hrename
    · obtain ⟨gone, hremove, hat⟩ := Disk.remove_put hnone hhas
      rw [hremove, hmade]
      exact hat l
  exact hcommit.bind fun _ _ hnew => .pure hnew

theorem ends_writeText (station : Station) (text : String) :
    ∃ result new, ends station (writeText p text) d = (result, new) ∧
      WriteEnds old d p text result new := by
  have h : (writeText p text).Reaches station d
      (fun result new => WriteEnds old d p text (.ok result) new)
      fun fault new => WriteEnds old d p text (.error fault) new := writeText_reaches ho hfree text
  rcases he : ends station (writeText p text) d with ⟨fault | result, new⟩
  · exact ⟨_, new, rfl, h.failed he⟩
  · exact ⟨_, new, rfl, h.ok he⟩

end

end Job

end NavTree
