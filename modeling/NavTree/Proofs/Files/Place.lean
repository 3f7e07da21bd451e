import NavTree.Proofs.Files.Way
import NavTree.Proofs.Result

/-! # Places of paths

The place that a path names, and the place that it leads to when a link stands there. Lookups that
succeed on a disk find the places that were read off an older one, and find them again later as long
as nothing on the way is replaced.
-/
namespace NavTree.Disk

variable {d old new : Disk} {p : String}

/-- The way to the place that a path names. A link at that place is not followed. -/
def approach (d : Disk) (p : String) : Way :=
  let outside := d.way (linkBudget + 1) [] (Path.around p)
  match Path.fileName? p with
  | some n => ⟨n :: outside.finish, outside.links⟩
  | none => outside

/-- The place that a path names. -/
def place (d : Disk) (p : String) : Location := (d.approach p).finish

/-- The way to what a path leads to, links at its end followed. -/
def course (d : Disk) (p : String) : Way := d.way (linkBudget + 1) [] (Path.steps p)

theorem approach_temporaryPath (d : Disk) (p : String) :
    d.approach (temporaryPath p) =
      ⟨Path.temporaryName p :: (d.way (linkBudget + 1) [] (Path.around p)).finish,
        (d.approach p).links⟩ := by
  obtain ⟨front, hr, hf⟩ := Path.route_temporaryPath p
  obtain ⟨hn, ha⟩ := Path.route_named (congrArg Path.Route.parts hr)
  have hlinks : (d.approach p).links = (d.way (linkBudget + 1) [] (Path.around p)).links := by
    rw [approach]
    cases Path.fileName? p <;> rfl
  rw [approach, hn, ← ha, hf, hlinks]

theorem place_temporaryPath_ne {p q : String} (h : d.place p ≠ d.place q) :
    d.place (temporaryPath p) ≠ d.place (temporaryPath q) := by
  intro he
  rw [place, place, approach_temporaryPath, approach_temporaryPath, List.cons.injEq] at he
  obtain ⟨hn, ha⟩ := he
  rw [Path.temporaryName, Path.temporaryName, String.append_left_inj] at hn
  apply h
  rw [place, place, approach, approach]
  cases hp : Path.fileName? p with
  | none =>
    cases hq : Path.fileName? q with
    | none => exact ha
    | some m =>
      have hm := (Path.isName_of_fileName? hq).nonempty
      simp [hp, hq] at hn
      simp [← hn] at hm
  | some n =>
    cases hq : Path.fileName? q with
    | none =>
      have hm := (Path.isName_of_fileName? hp).nonempty
      simp [hp, hq] at hn
      simp [hn] at hm
    | some m =>
      simp only [hp, hq, Option.getD_some] at hn
      simp only [hn, ha]

structure Fit (p : String) : Prop where
  noZero : hasZeroByte p = false
  nonempty : p ≠ ""
  short : p.utf8ByteSize < pathLimit

theorem find_eq_ok {purpose : Purpose} {spot : Spot} : d.find purpose p = .ok spot ↔
    Fit p ∧ d.resolve purpose (linkBudget + 1) [] (Path.route p) = .ok spot := by
  rw [find]
  constructor
  · intro h
    split at h
    · cases h
    split at h
    · cases h
    split at h
    · cases h
    next hz he hl => exact ⟨⟨by simpa using hz, he, by omega⟩, h⟩
  · rintro ⟨⟨hz, he, hl⟩, h⟩
    rw [if_neg (by simp [hz]), if_neg he, if_neg (by omega)]
    exact h

/-- A file is what a path names, without a slash behind it. The place is read off an older disk. -/
def Has (old d : Disk) (p : String) (content : ByteArray) : Prop :=
  d.find .name p = .ok ⟨old.place p, some (.file content), true, false⟩

variable {front : List PathPart} {n : String} {slashed : Bool} {purpose : Purpose} {spot : Spot}
  {content : ByteArray}

theorem leads_of_find (hr : Path.route p = ⟨front ++ [.name n], slashed⟩)
    (h : d.find purpose p = .ok spot) : ∃ b loc links,
      d.Leads linkBudget [] front b loc links ∧ n.utf8ByteSize ≤ longestName ∧
        d.endAt purpose slashed (d.resolve purpose b) loc n = .ok spot := by
  obtain ⟨_, h⟩ := find_eq_ok.mp h
  rw [hr] at h
  exact Leads.of_resolve_named h

theorem find_of_leads (hr : Path.route p = ⟨front ++ [.name n], slashed⟩) (hf : Fit p) {b : Nat}
    {loc : Location} {links : List Location} (hl : d.Leads linkBudget [] front b loc links)
    (hn : n.utf8ByteSize ≤ longestName) :
    d.find purpose p = d.endAt purpose slashed (d.resolve purpose b) loc n := by
  have hfind : d.find purpose p = d.resolve purpose (linkBudget + 1) [] (Path.route p) := by
    rw [find, if_neg (by simp [hf.noZero]), if_neg hf.nonempty, if_neg (Nat.not_le_of_lt hf.short)]
  rw [hfind, hr, hl.resolve_named hn]

theorem approach_of_leads (hr : Path.route p = ⟨front ++ [.name n], slashed⟩) (ho : Over old d)
    {b : Nat} {loc : Location} {links : List Location}
    (hl : d.Leads linkBudget [] front b loc links) : old.approach p = ⟨n :: loc, links⟩ := by
  obtain ⟨hn, ha⟩ := Path.route_named (congrArg Path.Route.parts hr)
  rw [approach, hn, ← ha, hl.way_done ho]

/-- Looked up by name, a path that ends in a name is found at its place. -/
theorem find_name (hr : Path.route p = ⟨front ++ [.name n], slashed⟩) (ho : Over old d)
    (h : d.find .name p = .ok spot) :
    spot = ⟨old.place p, d.at? (old.place p), true, slashed⟩ := by
  obtain ⟨b, loc, links, hl, _, he⟩ := leads_of_find hr h
  have hp : old.place p = n :: loc := congrArg Way.finish (approach_of_leads hr ho hl)
  cases he
  rw [hp]

/-- What is found under a name, or is no directory, was looked up by a path that ends in a name. -/
theorem route_of_find (h : d.find purpose p = .ok spot)
    (hs : spot.entry ≠ some .directory ∨ spot.named = true) :
    ∃ front n slashed, Path.route p = ⟨front ++ [.name n], slashed⟩ := by
  cases hr : Path.route p with
  | mk parts slashed =>
    have hres := (find_eq_ok.mp h).2
    rw [hr] at hres
    obtain ⟨front, n, rfl⟩ := exists_last hres hs
    exact ⟨front, n, slashed, rfl⟩

theorem route_of_find_name (h : d.find .name p = .ok spot) (hn : spot.named = true) :
    ∃ front n, Path.route p = ⟨front ++ [.name n], spot.slashed⟩ := by
  obtain ⟨front, n, slashed, hr⟩ := route_of_find h (.inr hn)
  exact ⟨front, n, by rw [hr, find_name hr (.refl d) h]⟩

theorem find_name_keep (hr : Path.route p = ⟨front ++ [.name n], slashed⟩) (ho : Over old d)
    (h : d.find .name p = .ok spot) (hk : Keeps d new (old.approach p).links) :
    new.find .name p = .ok ⟨old.place p, new.at? (old.place p), true, slashed⟩ := by
  obtain ⟨b, loc, links, hl, hn, _⟩ := leads_of_find hr h
  have hp := approach_of_leads hr ho hl
  have hl' : new.Leads linkBudget [] front b loc links := hl.mono (by rw [hp] at hk; exact hk)
  rw [find_of_leads hr (find_eq_ok.mp h).1 hl' hn, place, hp]
  rfl

theorem endAt_of_not_link {jump : Location → Path.Route → Except FileFault Spot} {loc : Location}
    (hl : ∀ target, d.at? (n :: loc) ≠ some (.link target)) :
    d.endAt purpose false jump loc n = .ok ⟨n :: loc, d.at? (n :: loc), true, false⟩ := by
  have hm : ¬ (purpose = .make ∧ false = true) := by simp
  unfold endAt
  by_cases hp : purpose = .name
  · rw [if_pos hp]
  · rw [if_neg hp, if_neg hm]
    cases he : d.at? (n :: loc) with
    | none => rfl
    | some e =>
      cases e with
      | directory => rfl
      | file content => rfl
      | link target => exact absurd he (hl target)

/-- What is made at a path that ends in a name is made at its place, unless a link stands there. -/
theorem find_make (hr : Path.route p = ⟨front ++ [.name n], false⟩) (ho : Over old d)
    (h : d.find .make p = .ok spot) (hl : ∀ target, d.at? (old.place p) ≠ some (.link target)) :
    spot.location = old.place p ∧ spot.entry = d.at? (old.place p) ∧
      d.find .name p = .ok ⟨old.place p, d.at? (old.place p), true, false⟩ := by
  obtain ⟨b, loc, links, hleads, hn, he⟩ := leads_of_find hr h
  have hp : old.place p = n :: loc := congrArg Way.finish (approach_of_leads hr ho hleads)
  have hname : d.find .name p = .ok ⟨old.place p, d.at? (old.place p), true, false⟩ := by
    rw [find_of_leads hr (find_eq_ok.mp h).1 hleads hn, hp]
    rfl
  rw [hp] at hl
  rw [endAt_of_not_link hl] at he
  cases he
  exact ⟨hp.symm, by rw [hp], hname⟩

theorem at?_of_find_name {spot : Spot} (h : d.find .name p = .ok spot)
    (he : spot.entry ≠ some .directory) : d.at? spot.location = spot.entry := by
  obtain ⟨front, n, slashed, hr⟩ := route_of_find h (.inl he)
  obtain ⟨_, _, _, _, _, hend⟩ := leads_of_find hr h
  cases hend
  rfl

namespace Has

theorem route (h : Has old d p content) :
    ∃ front n, Path.route p = ⟨front ++ [.name n], false⟩ := route_of_find_name h rfl

theorem at? (h : Has old d p content) : d.at? (old.place p) = some (.file content) :=
  at?_of_find_name h (by simp)

theorem keep (h : Has old d p content) (ho : Over old d) (hk : Keeps d new (old.approach p).links)
    (ha : new.at? (old.place p) = some (.file content)) : Has old new p content := by
  obtain ⟨front, n, hr⟩ := h.route
  rw [Has, find_name_keep hr ho h hk, ha]

theorem read (h : Has old d p content) : d.read p = .ok content := by
  obtain ⟨front, n, hr⟩ := h.route
  obtain ⟨b, loc, links, hl, hn, he⟩ := leads_of_find hr h
  have hat : d.at? (n :: loc) = some (.file content) := congrArg Spot.entry (Except.ok.inj he)
  have hnl : ∀ target, d.at? (n :: loc) ≠ some (.link target) := by simp [hat]
  rw [Disk.read, find_of_leads hr (find_eq_ok.mp h).1 hl hn, endAt_of_not_link hnl, hat]
  rfl

end Has

theorem endAt_link {jump : Location → Path.Route → Except FileFault Spot} {loc : Location}
    {target : String} (hl : d.at? (n :: loc) = some (.link target)) :
    d.endAt .visit slashed jump loc n =
      jump loc ⟨(Path.route target).parts, (Path.route target).slashed || slashed⟩ := by
  unfold endAt
  rw [if_neg (by decide), if_neg (by simp)]
  simp only [hl]

theorem endAt_file {jump : Location → Path.Route → Except FileFault Spot} {loc : Location}
    (hl : ∀ target, d.at? (n :: loc) ≠ some (.link target))
    (h : d.endAt .visit slashed jump loc n = .ok spot) (hs : spot.entry = some (.file content)) :
    slashed = false ∧ d.at? (n :: loc) = some (.file content) := by
  cases slashed with
  | false =>
    rw [endAt_of_not_link hl] at h
    cases h
    exact ⟨rfl, hs⟩
  | true =>
    unfold endAt at h
    rw [if_neg (by decide), if_neg (by simp)] at h
    cases he : d.at? (n :: loc) with
    | none =>
      simp only [he] at h
      cases h
      cases hs
    | some e =>
      cases e with
      | directory =>
        simp only [he] at h
        cases h
        cases hs
      | file c => simp [he] at h
      | link target => exact absurd he (hl target)

theorem way_of_not_link {b : Nat} {loc : Location}
    (hl : ∀ target, d.at? (n :: loc) ≠ some (.link target)) :
    d.way (b + 1) loc [.name n] = ⟨n :: loc, []⟩ := by
  rw [way, follow]
  split
  · next target he => exact absurd he (hl target)
  · rfl

theorem way_of_link {b : Nat} {loc : Location} {target : String}
    (hl : d.at? (n :: loc) = some (.link target)) :
    d.way (b + 1) loc [.name n] = ⟨(d.way b loc (Path.steps target)).finish,
      (n :: loc) :: (d.way b loc (Path.steps target)).links⟩ := by
  rw [way, follow, hl]
  simp only [List.append_nil]

/-- A file that is read through a path is where its way ends, if no link on the way was replaced
since; and it is read again when the way is kept and a file stands there. -/
theorem resolve_visit {b : Nat} {loc : Location} {parts : List PathPart} (ho : Over old d)
    (h : d.resolve .visit (b + 1) loc ⟨parts, slashed⟩ = .ok spot)
    (hs : spot.entry = some (.file content))
    (hk : ∀ l ∈ (old.way (b + 1) loc (parts.filter (· ≠ .here))).links, ∀ target,
      old.at? l = some (.link target) → d.at? l = some (.link target)) :
    d.at? (old.way (b + 1) loc (parts.filter (· ≠ .here))).finish = some (.file content) ∧
    ∀ new content', Keeps d new (old.way (b + 1) loc (parts.filter (· ≠ .here))).links →
      new.at? (old.way (b + 1) loc (parts.filter (· ≠ .here))).finish = some (.file content') →
      ∃ spot', new.resolve .visit (b + 1) loc ⟨parts, slashed⟩ = .ok spot' ∧
        spot'.entry = some (.file content') := by
  induction b using Nat.strong_induction_on generalizing loc parts slashed with
  | _ b ih =>
    obtain ⟨front, n, rfl⟩ := exists_last h (.inl (by simp [hs]))
    obtain ⟨b', loc', links, hl, hn, ht⟩ := Leads.of_resolve_named h
    rw [Path.filter_append_name, hl.way_eq ho [.name n]] at hk ⊢
    have hreach : ∀ new : Disk, Keeps d new (links ++ (old.way (b' + 1) loc' [.name n]).links) →
        new.resolve .visit (b + 1) loc ⟨front ++ [.name n], slashed⟩ =
          new.endAt .visit slashed (new.resolve .visit b') loc' n := by
      intro new hkn
      have hlinks : Keeps d new links :=
        ⟨hkn.directory, fun hm => hkn.link (List.mem_append_left _ hm)⟩
      exact (hl.mono hlinks).resolve_named hn
    by_cases hlink : ∃ target, d.at? (n :: loc') = some (.link target)
    · obtain ⟨target, he⟩ := hlink
      rw [way_of_link (ho.link he)] at hk hreach ⊢
      rw [endAt_link he] at ht
      cases b' with
      | zero => cases ht
      | succ b₁ =>
        have hlt : b₁ < b := hl.le
        obtain ⟨hfile, hagain⟩ := ih b₁ hlt ht fun l hm =>
          hk l (List.mem_append_right _ (List.mem_cons_of_mem _ hm))
        refine ⟨hfile, ?_⟩
        intro new content' hkn hnew
        have hbeyond : Keeps d new (old.way (b₁ + 1) loc' (Path.steps target)).links :=
          ⟨hkn.directory, fun hm => hkn.link (by simp [hm])⟩
        obtain ⟨spot', hspot, hentry⟩ := hagain new content' hbeyond hnew
        refine ⟨spot', ?_, hentry⟩
        rw [hreach new hkn, endAt_link (hkn.link (by simp) he)]
        exact hspot
    · have hnot : ∀ target, d.at? (n :: loc') ≠ some (.link target) :=
        fun target he => hlink ⟨target, he⟩
      have hold : ∀ target, old.at? (n :: loc') ≠ some (.link target) := by
        intro target he
        rw [way_of_link he] at hk
        exact hnot target (hk _ (by simp) target he)
      obtain ⟨rfl, hfile⟩ := endAt_file hnot ht hs
      rw [way_of_not_link hold] at hreach ⊢
      refine ⟨hfile, ?_⟩
      intro new content' hkn hnew
      have hnew' : ∀ target, new.at? (n :: loc') ≠ some (.link target) := by simp [hnew]
      exact ⟨_, by rw [hreach new hkn, endAt_of_not_link hnew'], hnew⟩

theorem read_eq_ok : d.read p = .ok content ↔
    ∃ spot, d.find .visit p = .ok spot ∧ spot.entry = some (.file content) := by
  rw [Disk.read, bind_eq_ok]
  refine exists_congr fun spot => and_congr_right fun _ => ?_
  rcases spot.entry with _ | (_ | content' | target) <;> simp

theorem at?_of_read (ho : Over old d) (h : d.read p = .ok content)
    (hk : ∀ l ∈ (old.course p).links, ∀ target,
      old.at? l = some (.link target) → d.at? l = some (.link target)) :
    d.at? (old.course p).finish = some (.file content) := by
  obtain ⟨spot, hf, hs⟩ := read_eq_ok.mp h
  exact (resolve_visit ho (find_eq_ok.mp hf).2 hs hk).1

theorem read_keep (ho : Over old d) (h : d.read p = .ok content)
    (hk : ∀ l ∈ (old.course p).links, ∀ target,
      old.at? l = some (.link target) → d.at? l = some (.link target))
    (hn : Keeps d new (old.course p).links) {content' : ByteArray}
    (ha : new.at? (old.course p).finish = some (.file content')) : new.read p = .ok content' := by
  obtain ⟨spot, hf, hs⟩ := read_eq_ok.mp h
  obtain ⟨hfit, hr⟩ := find_eq_ok.mp hf
  obtain ⟨spot', hr', hs'⟩ := (resolve_visit ho hr hs hk).2 new content' hn ha
  exact read_eq_ok.mpr ⟨spot', find_eq_ok.mpr ⟨hfit, hr'⟩, hs'⟩

end NavTree.Disk
