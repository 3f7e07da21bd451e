import NavTree.Proofs.Project.Places
import NavTree.Proofs.Task.Schedule

/-! # Local operations

Each operation of a compilation that draws no graph is replied to in the same way on all disks that
agree where it looks, and makes the same edits there, at the places of the files that it makes.
-/
namespace NavTree

open Operation

variable {station : Station} {old d e : Disk} {source p : String} {places : List Location}
  {region : Location → Prop}
  {evaluate : String → Except FileFault ByteArray → Except StartFault ToolResult}

theorem target_mem_produced (h : p ∈ targetPaths source) : p ∈ producedPaths source :=
  List.mem_append_left _ h

theorem temporary_mem_produced (h : p ∈ targetPaths source) :
    temporaryPath p ∈ producedPaths source :=
  List.mem_append_right _ (List.mem_map_of_mem h)

/-- The program that evaluates sources is a function of the file that it is given. -/
def Evaluates (station : Station)
    (evaluate : String → Except FileFault ByteArray → Except StartFault ToolResult) : Prop :=
  ∀ path d, station.tools.start "jsonnet" [path] d = (evaluate path (d.read path), d)

/-- A path is opened at its place, and something other than a directory stood there. -/
def Replaceable (old : Disk) (p : String) (l : Location) : Prop :=
  l = old.place p ∧ old.at? l ≠ some .directory

theorem attempted_ok {d' : Disk} {r : Except FileFault Disk} (h : r = .ok d') :
    attempted d r = (.ok (), d') := by
  rw [h]
  rfl

theorem attempted_error {fault : FileFault} {r : Except FileFault Disk} (h : r = .error fault) :
    attempted d r = (.error fault, d) := by
  rw [h]
  rfl

/-- On all disks that agree in a region, an operation is replied to in the same way and makes the
same edits, at some places that held no directories. -/
def ActsIn (station : Station) (old : Disk) (region : Location → Prop) (places : List Location)
    (e : Disk) (op : Operation) : Prop :=
  ∃ r xs, Tells (Replaceable old) op r ∧ (∀ x ∈ xs, x.1 ∈ old.changeable places) ∧
    ∀ d, Agree region d e → station.reply d op = (r, d.edits xs)

/-- What a compilation without a graph looks at and makes is in a region and at some places, which
are not on the way to its directory. -/
structure Local (old : Disk) (source : String) (region : Location → Prop)
    (places : List Location) : Prop where
  prepared : Prepared old source
  makes : ∀ p ∈ producedPaths source, old.place p ∈ places
  looks : ∀ p ∈ Path.outputDirectory source :: source :: producedPaths source,
    ∀ l ∈ old.looks p, region l
  way : ∀ l ∈ old.changeable places, l ∉ old.looks (Path.outputDirectory source)

namespace Local

variable (hlocal : Local old source region places)
include hlocal

theorem alike (h : Disk.Stays old places e)
    (hp : p ∈ Path.outputDirectory source :: source :: producedPaths source)
    (ha : Agree region d e) : Disk.Alike e d p :=
  Disk.alike_of_looks fun l hl => ha l (hlocal.looks p hp l (h.fades.looks_subset p hl))

/-- The place of a temporary is looked at. -/
theorem temporary (hp : p ∈ targetPaths source) : region (old.place (temporaryPath p)) := by
  refine hlocal.looks (temporaryPath p) (by simp [temporary_mem_produced hp]) _ ?_
  obtain ⟨n, -, -, hn, -, ht⟩ := target_names hp
  rw [ht, old.place_join _ hn]
  exact Disk.mem_looks_join hlocal.prepared.directory hn

/-- A temporary is filled at its place, with as much of the text as the medium takes. -/
theorem fill (hp : p ∈ targetPaths source) (hd : old.at? (old.place (temporaryPath p)) ≠
    some .directory) (content : ByteArray) (e : Disk) :
    ActsIn station old region places e (.fill (old.place (temporaryPath p)) content) := by
  have hc : old.place (temporaryPath p) ∈ old.changeable places :=
    Disk.mem_changeable.mpr ⟨hlocal.makes _ (temporary_mem_produced hp), hd⟩
  have hagree : ∀ d, Agree region d e →
      d.at? (old.place (temporaryPath p)) = e.at? (old.place (temporaryPath p)) :=
    fun d ha => ha _ (hlocal.temporary hp)
  cases hs : station.equipment.medium (old.place (temporaryPath p)) content with
  | none =>
    obtain ⟨xs, hxs, hfill⟩ := e.fill_eq (old.place (temporaryPath p)) content
    refine ⟨.ok (), xs, trivial, fun x hx => hxs x hx ▸ hc, fun d ha => ?_⟩
    simp only [Station.reply, Disk.fillOn, hs, hfill d (hagree d ha)]
  | some shortage =>
    obtain ⟨xs, hxs, hfill⟩ :=
      e.fill_eq (old.place (temporaryPath p)) (content.extract 0 shortage.taken)
    refine ⟨.error shortage.fault, xs, trivial, fun x hx => hxs x hx ▸ hc, fun d ha => ?_⟩
    simp only [Station.reply, Disk.fillOn, hs, hfill d (hagree d ha)]

theorem allows (hj : Evaluates station evaluate) : Allows source (Replaceable old) false
    fun op => ∀ e, Disk.Stays old places e → ActsIn station old region places e op := by
  have halike : ∀ {e d p}, Disk.Stays old places e → p ∈ producedPaths source →
      Agree region d e → Disk.Alike e d p := fun h hp ha => hlocal.alike h (by simp [hp]) ha
  have hsource : ∀ {e d}, Disk.Stays old places e → Agree region d e → Disk.Alike e d source :=
    fun h ha => hlocal.alike h (by simp) ha
  constructor
  case read =>
    intro e h
    refine ⟨e.read source, [], trivial, nofun, fun d ha => ?_⟩
    rw [← (hsource h ha).read]
    rfl
  case evaluate =>
    intro e h
    refine ⟨evaluate source (e.read source), [], trivial, nofun, fun d ha => ?_⟩
    rw [← (hsource h ha).read]
    exact hj source d
  case target =>
    intro p hp e h
    refine ⟨e.read p, [], trivial, nofun, fun d ha => ?_⟩
    rw [← (halike h (target_mem_produced hp) ha).read]
    rfl
  case around =>
    intro e h
    refine ⟨.ok (), [], trivial, nofun, fun d ha => ?_⟩
    have hdir := hlocal.prepared.isDirectory h fun l hl hc => hlocal.way l hc hl
    rw [← (hlocal.alike h (by simp) ha : Disk.Alike e d _).isDirectory] at hdir
    exact Disk.makeDirectories_of_isDirectory hdir
  case format =>
    intro dialect text e h
    exact ⟨station.equipment.format dialect text, [], trivial, nofun, fun d ha => rfl⟩
  case create =>
    intro p hp e h
    have hm := temporary_mem_produced hp
    rcases hlocal.prepared.create h hp (hlocal.makes _ hm) with ⟨fault, hw⟩ | ⟨hc, hw⟩
    · refine ⟨.error fault, [], trivial, nofun, fun d ha => ?_⟩
      rw [Station.reply, hw d (halike h hm ha)]
      rfl
    · refine ⟨.ok (old.place (temporaryPath p)), [(old.place (temporaryPath p), some .empty)],
        ⟨rfl, (Disk.mem_changeable.mp hc).2⟩, List.forall_mem_singleton.mpr hc, fun d ha => ?_⟩
      rw [Station.reply, hw d (halike h hm ha)]
      rfl
  case fill =>
    rintro p l hp ⟨rfl, hd⟩ content e h
    exact hlocal.fill hp hd content e
  case discard =>
    intro p hp e h
    have hm := temporary_mem_produced hp
    rcases remove_temporary h p (hlocal.makes _ hm) with ⟨fault, hr⟩ | ⟨hc, hr⟩
    · exact ⟨.error fault, [], trivial, nofun, fun d ha => attempted_error (hr d (halike h hm ha))⟩
    · exact ⟨.ok (), [(old.place (temporaryPath p), none)], trivial,
        List.forall_mem_singleton.mpr hc, fun d ha => attempted_ok (hr d (halike h hm ha))⟩
  case install =>
    rintro p l hp ⟨rfl, hd⟩ e h
    have hm := temporary_mem_produced hp
    have hm' := target_mem_produced hp
    rcases hlocal.prepared.rename h hp (hlocal.makes _ hm) (hlocal.makes _ hm')
      (h.fades.not_directory hd) with ⟨fault, hr⟩ | ⟨c, -, hc, hr⟩
    · exact ⟨.error fault, [], trivial, nofun,
        fun d ha => attempted_error (hr d (halike h hm ha) (halike h hm' ha))⟩
    · exact ⟨.ok (), _, trivial, hc,
        fun d ha => attempted_ok (hr d (halike h hm ha) (halike h hm' ha))⟩
  case draw => simp
  case note =>
    intro line e h
    exact ⟨(), [], trivial, nofun, fun d ha => rfl⟩

end Local

/-- A task of local operations looks at its region only and changes nothing but those places. -/
theorem confined_of_actsIn {α : Type} {t : Task α} {post : α → Prop}
    (ht : t.Always (fun op => ∀ e, Disk.Stays old places e → ActsIn station old region places e op)
      (Tells (Replaceable old)) post)
    (h : Disk.Stays old places e) :
    t.Confined station region (· ∈ old.changeable places) e := by
  induction t generalizing e with
  | done a => trivial
  | step op next ih =>
    obtain ⟨r, xs, htell, hxs, hreply⟩ := ht.1 e h
    have hself := hreply e fun _ _ => rfl
    have houter : ∀ x ∈ xs, Disk.isOuter x.1 = false :=
      fun x hx => Disk.isOuter_of_mem_changeable (hxs x hx)
    refine ⟨⟨fun d ha => ?_, fun d ha l hl => ?_, fun d ha l hl => ?_⟩, ?_⟩
    · rw [hreply d ha, hself]
    · rw [hreply d ha, hself]
      exact Disk.at?_edits_congr houter (ha l hl)
    · rw [hreply d ha]
      refine Disk.at?_edits_of_notMem houter fun hm => ?_
      obtain ⟨x, hx, rfl⟩ := List.mem_map.mp hm
      exact hl (hxs x hx)
    · rw [hself]
      exact ih r (ht.2 r htell) (h.edits hxs)

end NavTree
