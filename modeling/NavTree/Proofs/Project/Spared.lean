import NavTree.Proofs.Files.Grown
import NavTree.Proofs.Project.Persist
import NavTree.Project.Install

/-! # What writing spares

Whether it succeeds or fails, an installation changes the places that its targets and their
temporary paths name, and the ends of links at temporary paths. While files are staged the disk
grows, afterwards it narrows; so no path is redirected to any other place.
-/
namespace NavTree

variable {old base d new : Disk} {places : List Location} {p q : String} {content : ByteArray}

namespace Disk

/-- The places that the installation of a file may change. -/
def touched (old : Disk) (p : String) : List Location :=
  [old.place p, old.place (temporaryPath p), (old.course (temporaryPath p)).finish]

/-- What waits at the temporary path of a file is a text, or a link that leads to one. -/
def Ready (old d : Disk) (p : String) : Prop :=
  (∃ held, d.at? (old.place (temporaryPath p)) = some (.file held)) ∨
    ∃ target, d.at? (old.place (temporaryPath p)) = some (.link target) ∧
      d.LeadsToFile (old.place (temporaryPath p)).tail (Path.route target).parts

theorem Ready.grows (h : Ready old d p) (hg : Grows d new places) : Ready old new p := by
  rcases h with ⟨held, h⟩ | ⟨target, h, hf⟩
  · exact .inl (hg.file h)
  · exact .inr ⟨target, hg.link.mpr h, hg.leadsToFile hf⟩

theorem Ready.shut (h : Ready old d p) : Shut d d (old.place (temporaryPath p)) := by
  rcases h with ⟨held, h⟩ | ⟨target, h, hf⟩
  · exact ⟨by simp [h], by simp [h]⟩
  · refine ⟨by simp [h], fun {target'} h' => ?_⟩
    obtain rfl := Entry.link.inj (Option.some.inj (h.symm.trans h'))
    exact hf.barred

/-- A text that is written to a temporary path lands where the path leads. -/
theorem Grows.write (h : Grows old d places) (hp : old.touched p ⊆ places)
    (hw : d.write (temporaryPath p) content = .ok new) :
    Grows d new places ∧ Ready old new p := by
  obtain ⟨spot, hf, hs, hput⟩ := put_of_write.mp hw
  have hd : spot.entry ≠ some .directory := by
    rcases hs with he | ⟨held, he⟩ <;> simp [he]
  have hat : d.at? spot.location = spot.entry := (find_looks hf hd).2
  have hloc : spot.location = (old.course (temporaryPath p)).finish :=
    resolve_location h (by simp) (find_eq_ok.mp hf).2 hd
  have hgrows : Grows d new [spot.location] := hput ▸ Grows.put (hat ▸ hs) content
  refine ⟨hgrows.mono ?_, ?_⟩
  · refine List.forall_mem_singleton.mpr (hp ?_)
    simp [touched, hloc]
  obtain ⟨front, hr, -⟩ := Path.route_temporaryPath p
  obtain ⟨b, loc, links, hl, -, hend⟩ := leads_of_find hr hf
  have hplace : old.place (temporaryPath p) = Path.temporaryName p :: loc :=
    congrArg Way.finish (approach_of_leads hr h.toOver hl)
  rw [Ready, hplace]
  rcases endAt_cases hend with ⟨hlast, _⟩ | ⟨target, he, slashed, hjump⟩
  · refine .inl ⟨content, ?_⟩
    rw [← hput, ← hlast, at?_put _ _ _ _ (isOuter_eq_false (hat ▸ hd)), if_pos rfl]
  · cases b with
    | zero => cases hjump
    | succ b =>
      exact .inr ⟨target, hgrows.link.mpr he, hput ▸ leadsToFile_of_put hjump hs content⟩

/-- A disk after staging, of which only some places have changed, and at the temporary paths of the
waiting files nothing that leads anywhere stands. -/
structure Commits (old base d : Disk) (places : List Location) (waiting : String → Prop) :
    Prop where
  baseOver : Over old base
  narrows : Narrows base d
  elsewhere : ∀ {l}, l ∉ places → d.at? l = base.at? l
  shut : ∀ p, waiting p → Shut base d (old.place (temporaryPath p))

variable {waiting : String → Prop}

/-- Where files are staged, commits can begin. -/
theorem Grows.commits (h : Grows old d places) : Commits old d d places (Ready old d) where
  baseOver := h.toOver
  narrows := ⟨id⟩
  elsewhere _ := rfl
  shut _ hp := hp.shut

/-- Changes that shut the places they are made at are commits. -/
theorem Commits.change (h : Commits old base d places waiting)
    (hc : ∀ l, new.at? l = d.at? l ∨ l ∈ places ∧ Shut base new l) :
    Commits old base new places waiting where
  baseOver := h.baseOver
  narrows := h.narrows.trans (narrows_of_shut fun l => (hc l).imp_right fun hl =>
    ⟨hl.2.not_directory, fun ht => (hl.2.barred ht).narrows h.narrows⟩)
  elsewhere {l} hl := ((hc l).resolve_right fun hm => hl hm.1).trans (h.elsewhere hl)
  shut p hp := by
    rcases hc (old.place (temporaryPath p)) with he | ⟨_, hs⟩
    · have hshut := h.shut p hp
      exact ⟨he ▸ hshut.not_directory, fun ht => hshut.barred (he ▸ ht)⟩
    · exact hs

theorem Commits.erase (h : Commits old base d places waiting) {loc : Location} (hl : loc ∈ places)
    (hd : d.at? loc ≠ some .directory) : Commits old base (d.erase loc) places waiting := by
  refine h.change fun l => ?_
  rw [at?_erase _ _ _ (isOuter_eq_false hd)]
  by_cases he : l = loc
  · subst he
    refine .inr ⟨hl, ?_, ?_⟩
    · simp [at?_erase _ _ _ (isOuter_eq_false hd)]
    · simp [at?_erase _ _ _ (isOuter_eq_false hd)]
  · exact .inl (if_neg he)

theorem Commits.remove (h : Commits old base d places waiting) (hp : old.touched p ⊆ places) :
    Commits old base (attempted d (d.remove (temporaryPath p))).2 places waiting := by
  cases hr : d.remove (temporaryPath p) with
  | error fault => exact h
  | ok new =>
    obtain ⟨spot, hf, hr⟩ := bind_eq_ok.mp hr
    obtain ⟨front, hroute, -⟩ := Path.route_temporaryPath p
    obtain rfl := h.narrows.find_name h.baseOver hroute hf
    have hmem : old.place (temporaryPath p) ∈ places := hp (by simp [touched])
    rcases he : d.at? (old.place (temporaryPath p)) with _ | (_ | held | target)
    · simp [he] at hr
    · simp [he] at hr
    · obtain rfl : d.erase _ = new := by simpa [he] using hr
      exact h.erase hmem (by simp [he])
    · obtain rfl : d.erase _ = new := by simpa [he] using hr
      exact h.erase hmem (by simp [he])

/-- What a path names and its temporary stand in one directory. -/
theorem tail_place_temporary {n : String} (hn : Path.fileName? p = some n) :
    (old.place (temporaryPath p)).tail = (old.place p).tail := by
  rw [place, place, approach_temporaryPath, approach, hn]
  rfl

/-- A file and a link are moved alike. -/
theorem move_cases {source target : Spot} {e : Entry}
    (hr : (if source.slashed || target.slashed then throw .notDirectory
      else match target.entry with
        | some .directory => throw .isDirectory
        | _ => if target.location = source.location then return d
          else return (d.put target.location e).erase source.location :
      Except FileFault Disk) = .ok new) :
    target.entry ≠ some .directory ∧ (new = d ∨ target.location ≠ source.location ∧
      new = (d.put target.location e).erase source.location) := by
  split at hr
  · cases hr
  split at hr
  · cases hr
  next hd =>
  refine ⟨hd, ?_⟩
  split at hr
  · exact .inl (Except.ok.inj hr).symm
  next hne => exact .inr ⟨hne, (Except.ok.inj hr).symm⟩

/-- What is moved, other than a directory, is put where no directory stood. -/
theorem rename_cases {source target : Spot} (hs : d.find .name p = .ok source)
    (ht : d.find .name q = .ok target) (hd : source.entry ≠ some .directory)
    (hr : d.rename p q = .ok new) : target.named = true ∧ target.entry ≠ some .directory ∧
      ∃ e, source.entry = some e ∧ (new = d ∨ target.location ≠ source.location ∧
        new = (d.put target.location e).erase source.location) := by
  obtain ⟨_, hs', hr⟩ := bind_eq_ok.mp hr
  obtain rfl := Except.ok.inj (hs.symm.trans hs')
  obtain ⟨_, ht', hr⟩ := bind_eq_ok.mp hr
  obtain rfl := Except.ok.inj (ht.symm.trans ht')
  split at hr
  · cases hr
  next hnamed =>
  have hn : target.named = true := by
    by_contra hn
    simp [hn] at hnamed
  rcases he : source.entry with _ | (_ | content | link)
  · simp [he] at hr
  · exact absurd he hd
  · rw [he] at hr
    obtain ⟨hdir, hnew⟩ := move_cases hr
    exact ⟨hn, hdir, _, rfl, hnew⟩
  · rw [he] at hr
    obtain ⟨hdir, hnew⟩ := move_cases hr
    exact ⟨hn, hdir, _, rfl, hnew⟩

/-- Moving what waits to where it waits for shuts both places. -/
theorem Commits.rename (h : Commits old base d places waiting) (hp : old.touched p ⊆ places)
    (hw : waiting p) (hr : d.rename (temporaryPath p) p = .ok new) :
    Commits old base new places waiting := by
  obtain ⟨source, hf, -⟩ := bind_eq_ok.mp hr
  obtain ⟨target, hg, -⟩ := bind_eq_ok.mp (bind_eq_ok.mp hr).choose_spec.2
  obtain ⟨front, hroute, -⟩ := Path.route_temporaryPath p
  obtain rfl := h.narrows.find_name h.baseOver hroute hf
  have hshut := h.shut p hw
  obtain ⟨hn, hd, e, he, hnew⟩ := rename_cases hf hg hshut.not_directory hr
  obtain ⟨front', n, slashed, hroute'⟩ := route_of_find hg (.inr hn)
  obtain rfl := h.narrows.find_name h.baseOver hroute' hg
  rcases hnew with rfl | ⟨hne, rfl⟩
  · exact h
  have htail : (old.place (temporaryPath p)).tail = (old.place p).tail :=
    tail_place_temporary (Path.route_named (congrArg Path.Route.parts hroute')).1
  have hat : (d.put (old.place p) e).at? (old.place p) = some e := by
    rw [at?_put _ _ _ _ (isOuter_eq_false hd), if_pos rfl]
  have hmoved : Shut base (d.put (old.place p) e) (old.place p) := by
    refine ⟨by rw [hat, ← he]; exact hshut.not_directory, fun {t} ht => ?_⟩
    rw [← htail]
    exact hshut.barred (he.trans (hat.symm.trans ht))
  have hput : Commits old base (d.put (old.place p) e) places waiting := by
    refine h.change fun l => ?_
    by_cases hl : l = old.place p
    · subst hl
      exact .inr ⟨hp (by simp [touched]), hmoved⟩
    · exact .inl (by rw [at?_put _ _ _ _ (isOuter_eq_false hd), if_neg hl])
  exact hput.erase (hp (by simp [touched])) (hput.shut p hw).not_directory

end Disk

namespace Job

variable {station : Station}

/-- What is staged among some entries is of files that may be touched. -/
def Entries (old : Disk) (places : List Location) (ok : String → Prop)
    (entries : List (String × Option Staged)) : Prop :=
  ∀ path s, (path, some s) ∈ entries →
    s = ⟨temporaryPath path, path⟩ ∧ old.touched path ⊆ places ∧ ok path

variable {ok : String → Prop} {entries staged : List (String × Option Staged)}
  {waiting : String → Prop} {files : List Rendered}

theorem Entries.imp {ok' : String → Prop} (h : Entries old places ok entries)
    (himp : ∀ path, ok path → ok' path) : Entries old places ok' entries :=
  fun path s hs => (h path s hs).imp_right fun ⟨hp, hok⟩ => ⟨hp, himp path hok⟩

theorem Entries.subset (h : Entries old places ok entries) (hs : staged ⊆ entries) :
    Entries old places ok staged := fun path s hm => h path s (hs hm)

/-- What a job leaves that may have staged something before it took anything away. -/
def Narrowed (old : Disk) (places : List Location) (new : Disk) : Prop :=
  ∃ base waiting, Disk.Grows old base places ∧ Disk.Commits old base new places waiting

theorem discardAll_commits (h : Disk.Commits old base d places waiting)
    (he : Entries old places ok entries) :
    Disk.Commits old base ((discardAll (entries.map (·.2))).ends station d).2 places waiting := by
  refine discardAll_rule (fun _ _ new => Disk.Commits old base new places waiting)
    (fun _ _ h => h) (fun {done e w rest d} hsplit hw h => ?_) h
  have hm : e ∈ entries := by simp [hsplit]
  obtain ⟨rfl, hp, -⟩ := he e.1 w (hw ▸ hm)
  exact h.remove hp

/-- Staging grows the disk; only after it has failed something is taken away. -/
theorem stage_grows (h : Disk.Grows old d places) (hp : old.touched p ⊆ places) (text : String) :
    (stage p text).Reaches station d
      (fun entry new => Disk.Grows d new places ∧
        Entries old places (Disk.Ready old new) [(p, entry)])
      fun _ new => Narrowed old places new := by
  have hparent : Disk.Grows d (parentEnds d p).2 places := by
    rw [parentEnds]
    split
    · exact (Disk.Grows.makeDirectories d _).mono (List.nil_subset _)
    · exact .refl d places
  refine stage_rule (fun _ => ⟨.refl d places, by simp [Entries]⟩) (fun _ {fault made} hmade => ?_)
    (fun _ {made new} hmade hwrite => ?_) (fun _ {fault made new} hmade hwritten => ?_)
  all_goals
    rw [hmade] at hparent
    have hgrown : Disk.Grows old made places := h.trans hparent
  · exact ⟨made, _, hgrown, hgrown.commits⟩
  · obtain ⟨hgrows, hready⟩ := hgrown.write hp hwrite
    refine ⟨hparent.trans hgrows, fun path s hs => ?_⟩
    obtain ⟨rfl, hsome⟩ := Prod.mk.inj (List.mem_singleton.mp hs)
    exact ⟨Option.some.inj hsome, hp, hready⟩
  · -- the part of the text that was written may be what is taken away
    have hpart : Disk.Grows old new places := by
      rcases hwritten with rfl | ⟨part, hwrite⟩
      · exact hgrown
      · exact hgrown.trans (hgrown.write hp hwrite).1
    exact ⟨new, _, hpart, hpart.commits.remove hp⟩

theorem stageAll_grows (h : Disk.Grows old d places)
    (hfiles : ∀ f ∈ files, old.touched f.path ⊆ places) : (stageAll [] files).Reaches station d
      (fun entries new => Disk.Grows old new places ∧ Entries old places (Disk.Ready old new) entries)
      fun _ new => Narrowed old places new := by
  refine stageAll_rule (fun _ _ staged new => Disk.Grows old new places ∧
    Entries old places (Disk.Ready old new) staged) ?_ ⟨h, by simp [Entries]⟩
  rintro done f rest staged d hsplit ⟨hd, hs⟩
  refine (stage_grows hd (hfiles f (by simp [hsplit])) f.content).mono ?_ ?_
  · rintro entry new ⟨hgrows, hentry⟩
    refine ⟨hd.trans hgrows, fun path s hmem => ?_⟩
    rcases List.mem_append.mp hmem with hmem | hmem
    · exact (hs.imp fun q hq => hq.grows hgrows) path s hmem
    · exact hentry path s hmem
  · rintro fault new ⟨base, waiting, hgrows, hcommits⟩
    exact ⟨base, waiting, hgrows, discardAll_commits hcommits hs⟩

theorem commit_commits (h : Disk.Commits old base d places waiting) (hp : old.touched p ⊆ places)
    (hw : waiting p) : (commit ⟨temporaryPath p, p⟩).Reaches station d
      (fun _ new => Disk.Commits old base new places waiting)
      fun _ new => Disk.Commits old base new places waiting :=
  commit_rule (fun hr => h.rename hp hw hr) fun _ => h.remove hp

theorem commitAll_commits (h : Disk.Commits old base d places waiting)
    (he : Entries old places waiting entries) : (commitAll entries).Reaches station d
      (fun _ new => Disk.Commits old base new places waiting)
      fun _ new => Disk.Commits old base new places waiting := by
  rw [← List.map_id entries]
  refine (commitAll_rule (fun _ _ new => Disk.Commits old base new places waiting)
    (fun _ _ h => h) (fun {done e w rest d} hsplit hw h => ?_) h).mono (fun _ _ hnew => hnew.2)
    fun _ _ hnew => hnew
  · obtain ⟨rfl, hp, hwait⟩ := he e.1 w (hw ▸ by simp [hsplit])
    have hrest : Entries old places waiting rest := he.subset (by simp [hsplit])
    exact (commit_commits h hp hwait).mono (fun _ _ hnew => hnew) fun _ _ hnew =>
      discardAll_commits hnew hrest

/-- Nothing has moved but at some places, and files that are looked up without looking there are
read as before. -/
structure Spares (old new : Disk) (places : List Location) : Prop where
  unmoved : ∀ loc, loc ∉ places → Disk.Unmoved old new loc
  read : ∀ q content, old.read q = .ok content → (∀ l ∈ old.looks q, l ∉ places) →
    new.read q = .ok content

theorem Narrowed.spares (h : Narrowed old places new) : Spares old new places := by
  obtain ⟨base, waiting, hg, h⟩ := h
  have hunmoved : ∀ loc, loc ∉ places → Disk.Unmoved old new loc := by
    intro loc hl
    have hbase : Disk.Unmoved old base loc := hg.elsewhere hl
    rwa [Disk.Unmoved, h.elsewhere hl]
  refine ⟨hunmoved, fun q content hr hl => ?_⟩
  exact Disk.read_of_unmoved hr fun l hmem => hunmoved l (hl l hmem)

theorem persist_spares (old : Disk) (files : List Rendered) :
    Spares old (ends station (persist files) old).2 (files.flatMap fun f => old.touched f.path) := by
  have hfiles : ∀ f ∈ files, old.touched f.path ⊆ files.flatMap fun f => old.touched f.path :=
    fun f hf l hl => List.mem_flatMap.mpr ⟨f, hf, hl⟩
  refine Narrowed.spares (Reaches.disk ?_)
  refine (stageAll_grows (.refl old _) hfiles).bind fun entries base ⟨hgrows, hentries⟩ => ?_
  exact (commitAll_commits hgrows.commits hentries).mono (fun _ _ h => ⟨base, _, hgrows, h⟩)
    fun _ _ h => ⟨base, _, hgrows, h⟩

theorem writeText_spares (old : Disk) (path text : String) :
    Spares old (ends station (writeText path text) old).2 (old.touched path) := by
  refine Narrowed.spares (Reaches.disk ?_)
  refine (stage_grows (.refl old _) (List.Subset.refl (old.touched path)) text).bind
    fun entry base ⟨hgrows, hentry⟩ => ?_
  cases entry with
  | none => exact .pure ⟨base, _, hgrows, hgrows.commits⟩
  | some s =>
    obtain ⟨rfl, hp, hready⟩ := hentry path s List.mem_cons_self
    have hcommit : (commit ⟨temporaryPath path, path⟩).Reaches station base
        (fun _ new => Narrowed old (old.touched path) new)
        fun _ new => Narrowed old (old.touched path) new :=
      (commit_commits hgrows.commits hp hready).mono (fun _ _ h => ⟨base, _, hgrows, h⟩)
        fun _ _ h => ⟨base, _, hgrows, h⟩
    exact hcommit.bind fun _ _ hnew => .pure hnew

/-- On every disk, and however it ends, writing a text or installing files changes nothing but what
the targets and their temporary paths name or lead to, and directories that were missing. -/
theorem writing_spares (station : Station) (old : Disk) :
    (∀ path text, Spares old (ends station (writeText path text) old).2 (old.touched path)) ∧
    ∀ files, Spares old (ends station (persist files) old).2
      (files.flatMap fun f => old.touched f.path) :=
  ⟨writeText_spares old, persist_spares old⟩

/-- A file that is named like the temporary of another one. -/
def besideDisk : Disk := ⟨[(["a.tmp"], .file "kept".toUTF8)]⟩

/-- The file is no target, and it is written over and moved away. -/
theorem written_temporary_lost :
    besideDisk.read "a.tmp" = .ok "kept".toUTF8 ∧
    (ends toolless (writeText "a" "1") besideDisk).1 = .ok .written ∧
    (ends toolless (writeText "a" "1") besideDisk).2.read "a.tmp" = .error .notFound ∧
    (ends toolless (persist [⟨"a", "1"⟩]) besideDisk).1 = .ok [("a", .written)] ∧
    (ends toolless (persist [⟨"a", "1"⟩]) besideDisk).2.read "a.tmp" = .error .notFound :=
  ⟨by decide +kernel, by decide +kernel, by decide +kernel, by decide +kernel, by decide +kernel⟩

end Job

end NavTree
