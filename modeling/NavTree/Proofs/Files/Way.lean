import NavTree.Proofs.Files.Path

/-! # Ways of paths

Where a path leads does not depend on the operation it is looked up for. The way of a path is read
off a disk even where directories are still missing, so it can be compared with the lookups that
succeed later, when the disk has grown.
-/
namespace NavTree

/-- Where a walk ends, and the places of the links that it passes. -/
structure Way where
  finish : Location
  links : List Location

namespace Disk

/-- Follows steps from a directory. What is no link is taken for a directory; a link is left to
`jump`. -/
def follow (d : Disk) (jump : Location → List PathPart → Way) : Location → List PathPart → Way
  | loc, [] => ⟨loc, []⟩
  | _, .root :: rest => d.follow jump ["/"] rest
  | loc, .here :: rest => d.follow jump loc rest
  | loc, .up :: rest => d.follow jump (outward loc) rest
  | loc, .name s :: rest =>
    match d.at? (s :: loc) with
    | some (.link target) =>
      let beyond := jump loc (Path.steps target ++ rest)
      ⟨beyond.finish, (s :: loc) :: beyond.links⟩
    | _ => d.follow jump (s :: loc) rest

/-- The way of steps from a directory, passing fewer links than the given number. -/
def way (d : Disk) : Nat → Location → List PathPart → Way
  | 0 => fun loc _ => ⟨loc, []⟩
  | budget + 1 => d.follow (d.way budget)

/-- Everything linked is linked on the older disk, and directories are old ones or new. -/
structure Over (old d : Disk) : Prop where
  link : ∀ {loc target}, d.at? loc = some (.link target) → old.at? loc = some (.link target)
  directory : ∀ {loc}, d.at? loc = some .directory →
    old.at? loc = some .directory ∨ old.at? loc = none

theorem Over.refl (d : Disk) : Over d d := ⟨id, .inl⟩

/-- All directories of a disk are kept by a newer one, and the given links. -/
structure Keeps (d new : Disk) (links : List Location) : Prop where
  directory : ∀ {loc}, d.at? loc = some .directory → new.at? loc = some .directory
  link : ∀ {loc target}, loc ∈ links → d.at? loc = some (.link target) →
    new.at? loc = some (.link target)

/-- Parts lead from a directory to a directory past some links. The numbers are those of the links
that may be passed, before and after. -/
inductive Leads (d : Disk) :
    Nat → Location → List PathPart → Nat → Location → List Location → Prop
  | done {b loc} : Leads d b loc [] b loc []
  | root {b loc rest b' loc' links} (h : Leads d b ["/"] rest b' loc' links) :
    Leads d b loc (.root :: rest) b' loc' links
  | here {b loc rest b' loc' links} (h : Leads d b loc rest b' loc' links) :
    Leads d b loc (.here :: rest) b' loc' links
  | up {b loc rest b' loc' links} (h : Leads d b (outward loc) rest b' loc' links) :
    Leads d b loc (.up :: rest) b' loc' links
  | enter {b loc s rest b' loc' links} (hs : s.utf8ByteSize ≤ longestName)
    (hd : d.at? (s :: loc) = some .directory) (h : Leads d b (s :: loc) rest b' loc' links) :
    Leads d b loc (.name s :: rest) b' loc' links
  | jump {b loc s target rest b' loc' links} (hs : s.utf8ByteSize ≤ longestName)
    (hl : d.at? (s :: loc) = some (.link target))
    (h : Leads d b loc ((Path.route target).parts ++ rest) b' loc' links) :
    Leads d (b + 1) loc (.name s :: rest) b' loc' ((s :: loc) :: links)

variable {d old new : Disk} {b b' : Nat} {loc loc' : Location} {front tail : List PathPart}
  {links : List Location} {purpose : Purpose} {slashed : Bool} {spot : Spot}

/-- Parts that lead somewhere are the way of their steps, also on an older disk. -/
theorem Leads.way_eq (h : d.Leads b loc front b' loc' links) (ho : Over old d)
    (rest : List PathPart) :
    old.way (b + 1) loc (front.filter (· ≠ .here) ++ rest) =
      ⟨(old.way (b' + 1) loc' rest).finish, links ++ (old.way (b' + 1) loc' rest).links⟩ := by
  induction h with
  | done => rfl
  | root _ ih => exact ih
  | here _ ih => exact ih
  | up _ ih => exact ih
  | @enter b loc s front _ _ _ _ hd _ ih =>
    have hstep : old.way (b + 1) loc (.name s :: (front.filter (· ≠ .here) ++ rest)) =
        old.way (b + 1) (s :: loc) (front.filter (· ≠ .here) ++ rest) := by
      rw [way, follow]
      rcases ho.directory hd with hold | hold <;> rw [hold]
    exact hstep.trans ih
  | @jump b loc s target front _ _ _ _ hl _ ih =>
    rw [List.filter_append, List.append_assoc] at ih
    have hstep : old.way (b + 1 + 1) loc (.name s :: (front.filter (· ≠ .here) ++ rest)) =
        ⟨(old.way (b + 1) loc (Path.steps target ++ (front.filter (· ≠ .here) ++ rest))).finish,
          (s :: loc) ::
            (old.way (b + 1) loc (Path.steps target ++ (front.filter (· ≠ .here) ++ rest))).links⟩ := by
      rw [way, follow, ho.link hl]
    refine hstep.trans ?_
    rw [Path.steps, ih, List.cons_append]

theorem Leads.mono (h : d.Leads b loc front b' loc' links) (hk : Keeps d new links) :
    new.Leads b loc front b' loc' links := by
  induction h with
  | done => exact .done
  | root _ ih => exact .root (ih hk)
  | here _ ih => exact .here (ih hk)
  | up _ ih => exact .up (ih hk)
  | enter hs hd _ ih => exact .enter hs (hk.directory hd) (ih hk)
  | jump hs hl _ ih =>
    have hrest : Keeps d new _ := ⟨hk.directory, fun hm => hk.link (List.mem_cons_of_mem _ hm)⟩
    exact .jump hs (hk.link List.mem_cons_self hl) (ih hrest)

theorem Leads.le (h : d.Leads b loc front b' loc' links) : b' ≤ b := by
  induction h with
  | done => exact Nat.le_refl _
  | root _ ih => exact ih
  | here _ ih => exact ih
  | up _ ih => exact ih
  | enter _ _ _ ih => exact ih
  | jump _ _ _ ih => exact Nat.le_succ_of_le ih

theorem resolve_name {s : String} {rest : List PathPart} (hrest : rest ≠ []) :
    d.resolve purpose (b + 1) loc ⟨.name s :: rest, slashed⟩ =
      if s.utf8ByteSize > longestName then .error .nameTooLong
      else match d.at? (s :: loc) with
        | none => .error .notFound
        | some .directory => d.resolve purpose (b + 1) (s :: loc) ⟨rest, slashed⟩
        | some (.file _) => .error .notDirectory
        | some (.link target) => d.resolve purpose b loc ⟨(Path.route target).parts ++ rest, slashed⟩
    := by
  have he : rest.isEmpty = false := by simpa using hrest
  show descend _ _ _ _ _ _ = _
  rw [descend, he]
  by_cases hlong : s.utf8ByteSize > longestName
  · rw [if_pos hlong, if_pos hlong]
  · rw [if_neg hlong, if_neg hlong, if_neg Bool.false_ne_true]
    cases d.at? (s :: loc) with
    | none => rfl
    | some entry => cases entry <;> rfl

/-- All parts before the last ones lead to directories. -/
theorem Leads.of_resolve (htail : tail ≠ [])
    (h : d.resolve purpose (b + 1) loc ⟨front ++ tail, slashed⟩ = .ok spot) :
    ∃ b' loc' links, d.Leads b loc front b' loc' links ∧
      d.resolve purpose (b' + 1) loc' ⟨tail, slashed⟩ = .ok spot := by
  induction b using Nat.strong_induction_on generalizing loc front with
  | _ b ihb =>
    induction front generalizing loc with
    | nil => exact ⟨b, loc, [], .done, h⟩
    | cons part front ih =>
      cases part with
      | root =>
        obtain ⟨b', loc', links, hl, ht⟩ := ih h
        exact ⟨b', loc', links, .root hl, ht⟩
      | here =>
        obtain ⟨b', loc', links, hl, ht⟩ := ih h
        exact ⟨b', loc', links, .here hl, ht⟩
      | up =>
        obtain ⟨b', loc', links, hl, ht⟩ := ih h
        exact ⟨b', loc', links, .up hl, ht⟩
      | name s =>
        rw [List.cons_append, resolve_name (by simp [htail])] at h
        split at h
        · cases h
        · next hs =>
          have hs' := Nat.le_of_not_lt hs
          cases he : d.at? (s :: loc) with
          | none => simp [he] at h
          | some e =>
            cases e with
            | file content => simp [he] at h
            | directory =>
              simp only [he] at h
              obtain ⟨b', loc', links, hl, ht⟩ := ih h
              exact ⟨b', loc', links, .enter hs' he hl, ht⟩
            | link target =>
              simp only [he, ← List.append_assoc] at h
              cases b with
              | zero => cases h
              | succ b =>
                obtain ⟨b', loc', links, hl, ht⟩ := ihb b (Nat.lt_succ_self b) h
                exact ⟨b', loc', (s :: loc) :: links, .jump hs' he hl, ht⟩

theorem Leads.resolve (h : d.Leads b loc front b' loc' links) (htail : tail ≠ []) :
    d.resolve purpose (b + 1) loc ⟨front ++ tail, slashed⟩ =
      d.resolve purpose (b' + 1) loc' ⟨tail, slashed⟩ := by
  induction h with
  | done => rfl
  | root _ ih => exact ih
  | here _ ih => exact ih
  | up _ ih => exact ih
  | enter hs hd _ ih =>
    rw [List.cons_append, resolve_name (by simp [htail]), if_neg (Nat.not_lt_of_le hs), hd]
    exact ih
  | jump hs hl _ ih =>
    rw [List.cons_append, resolve_name (by simp [htail]), if_neg (Nat.not_lt_of_le hs), hl]
    simp only [← List.append_assoc]
    exact ih

theorem Leads.way_done (h : d.Leads b loc front b' loc' links) (ho : Over old d) :
    old.way (b + 1) loc (front.filter (· ≠ .here)) = ⟨loc', links⟩ := by
  have hw := h.way_eq ho []
  rw [List.append_nil] at hw
  rw [hw]
  simp [way, follow]

theorem resolve_last {n : String} :
    d.resolve purpose (b + 1) loc ⟨[.name n], slashed⟩ =
      if n.utf8ByteSize > longestName then .error .nameTooLong
      else d.endAt purpose slashed (d.resolve purpose b) loc n := by
  rw [resolve]
  simp [descend]

theorem resolve_unnamed {part : PathPart} (hp : ∀ n, part ≠ .name n)
    (h : d.resolve purpose (b + 1) loc ⟨[part], slashed⟩ = .ok spot) :
    spot.entry = some .directory ∧ spot.named = false := by
  cases part with
  | name n => exact absurd rfl (hp n)
  | root => cases h; exact ⟨rfl, rfl⟩
  | here => cases h; exact ⟨rfl, rfl⟩
  | up => cases h; exact ⟨rfl, rfl⟩

theorem Leads.resolve_named {n : String} (h : d.Leads b loc front b' loc' links)
    (hn : n.utf8ByteSize ≤ longestName) :
    d.resolve purpose (b + 1) loc ⟨front ++ [.name n], slashed⟩ =
      d.endAt purpose slashed (d.resolve purpose b') loc' n := by
  rw [h.resolve (by simp), resolve_last, if_neg (Nat.not_lt_of_le hn)]

theorem Leads.of_resolve_named {n : String}
    (h : d.resolve purpose (b + 1) loc ⟨front ++ [.name n], slashed⟩ = .ok spot) :
    ∃ b' loc' links, d.Leads b loc front b' loc' links ∧ n.utf8ByteSize ≤ longestName ∧
      d.endAt purpose slashed (d.resolve purpose b') loc' n = .ok spot := by
  obtain ⟨b', loc', links, hl, ht⟩ := Leads.of_resolve (by simp) h
  rw [resolve_last] at ht
  split at ht
  · cases ht
  · next hn => exact ⟨b', loc', links, hl, Nat.le_of_not_lt hn, ht⟩

/-- A lookup that comes to something else than a directory ends in a name. -/
theorem exists_last {parts : List PathPart}
    (h : d.resolve purpose (b + 1) loc ⟨parts, slashed⟩ = .ok spot)
    (hs : spot.entry ≠ some .directory ∨ spot.named = true) :
    ∃ front n, parts = front ++ [.name n] := by
  rcases List.eq_nil_or_concat' parts with rfl | ⟨front, part, rfl⟩
  · cases h
    simp at hs
  · by_cases hp : ∃ n, part = .name n
    · obtain ⟨n, rfl⟩ := hp
      exact ⟨front, n, rfl⟩
    · obtain ⟨_, _, _, _, ht⟩ := Leads.of_resolve (by simp) h
      obtain ⟨he, hn⟩ := resolve_unnamed (fun n hn => hp ⟨n, hn⟩) ht
      simp [he, hn] at hs

end Disk

end NavTree
