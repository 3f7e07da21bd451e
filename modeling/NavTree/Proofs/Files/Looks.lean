import NavTree.Proofs.Files.Beside
import NavTree.Proofs.Files.Change

/-! # What lookups look at

A lookup depends on the places that it looks at and on nothing else. Where entries only vanish or
become files, lookups look at fewer places.
-/
namespace NavTree.Disk

/-- The places that the parts of a path look at from a directory. What is behind a link is left to
`jump`. -/
def scan (d : Disk) (jump : Location → List PathPart → List Location) :
    Location → List PathPart → List Location
  | _, [] => []
  | _, .root :: rest => d.scan jump ["/"] rest
  | loc, .here :: rest => d.scan jump loc rest
  | loc, .up :: rest => d.scan jump (outward loc) rest
  | loc, .name s :: rest =>
    (s :: loc) :: match d.at? (s :: loc) with
      | some .directory => d.scan jump (s :: loc) rest
      | some (.link target) => jump loc ((Path.route target).parts ++ rest)
      | _ => []

/-- The places that are looked at when fewer links than the given number are passed. -/
def sights (d : Disk) : Nat → Location → List PathPart → List Location
  | 0 => fun _ _ => []
  | budget + 1 => d.scan (d.sights budget)

/-- The places that a lookup of a path looks at, links at its end followed. -/
def looks (d : Disk) (p : String) : List Location :=
  d.sights (linkBudget + 1) [] (Path.route p).parts

variable {d new : Disk} {b b' : Nat} {loc loc' : Location} {parts front tail : List PathPart}
  {purpose : Purpose} {slashed : Bool} {spot : Spot} {p : String} {links : List Location}

theorem sights_name (s : String) (rest : List PathPart) :
    d.sights (b + 1) loc (.name s :: rest) =
      (s :: loc) :: match d.at? (s :: loc) with
        | some .directory => d.sights (b + 1) (s :: loc) rest
        | some (.link target) => d.sights b loc ((Path.route target).parts ++ rest)
        | _ => [] := rfl

/-- Looking further, one looks at all the places before. -/
theorem sights_append : d.sights b loc front ⊆ d.sights b loc (front ++ tail) := by
  induction b generalizing loc front with
  | zero => exact List.Subset.refl _
  | succ b ihb =>
    induction front generalizing loc with
    | nil => exact List.nil_subset _
    | cons part rest ih =>
      cases part with
      | root => exact ih
      | here => exact ih
      | up => exact ih
      | name s =>
        rw [List.cons_append, sights_name, sights_name]
        apply List.cons_subset_cons
        rcases d.at? (s :: loc) with _ | (_ | content | target)
        · exact List.Subset.refl _
        · exact ih
        · exact List.Subset.refl _
        · simp only [← List.append_assoc]
          exact ihb

/-- Dots are not looked at. -/
theorem sights_filter : d.sights b loc (parts.filter (· ≠ .here)) = d.sights b loc parts := by
  induction b generalizing loc parts with
  | zero => rfl
  | succ b ihb =>
    induction parts generalizing loc with
    | nil => rfl
    | cons part rest ih =>
      cases part with
      | root => exact ih
      | here => exact ih
      | up => exact ih
      | name s =>
        have hjump : ∀ front, d.sights b loc (front ++ rest.filter (· ≠ .here)) =
            d.sights b loc (front ++ rest) := by
          intro front
          rw [← ihb, ← @ihb _ (front ++ rest), List.filter_append, List.filter_append,
            List.filter_filter]
          simp only [Bool.and_self]
        rw [List.filter_cons_of_pos (by simp), sights_name, sights_name]
        rcases d.at? (s :: loc) with _ | (_ | content | target)
        · rfl
        · exact congrArg _ ih
        · rfl
        · exact congrArg _ (hjump _)

theorem looks_eq_steps (p : String) : d.looks p = d.sights (linkBudget + 1) [] (Path.steps p) :=
  sights_filter.symm

theorem endAt_congr {n : String} (hat : new.at? (n :: loc) = d.at? (n :: loc))
    (hjump : ∀ target, d.at? (n :: loc) = some (.link target) → ∀ slashed,
      new.resolve purpose b loc ⟨(Path.route target).parts, slashed⟩ =
        d.resolve purpose b loc ⟨(Path.route target).parts, slashed⟩) :
    new.endAt purpose slashed (new.resolve purpose b) loc n =
      d.endAt purpose slashed (d.resolve purpose b) loc n := by
  unfold endAt
  rw [hat]
  cases he : d.at? (n :: loc) with
  | none => rfl
  | some e =>
    cases e with
    | link target => simp only [hjump target he]
    | _ => rfl

theorem resolve_congr (h : ∀ l ∈ d.sights b loc parts, new.at? l = d.at? l) :
    new.resolve purpose b loc ⟨parts, slashed⟩ = d.resolve purpose b loc ⟨parts, slashed⟩ := by
  induction b generalizing loc parts slashed with
  | zero => rfl
  | succ b ihb =>
    induction parts generalizing loc with
    | nil => rfl
    | cons part rest ih =>
      cases part with
      | root => exact ih h
      | here => exact ih h
      | up => exact ih h
      | name s =>
        rw [sights_name, List.forall_mem_cons] at h
        obtain ⟨hat, hrest⟩ := h
        by_cases hr : rest = []
        · subst hr
          rw [resolve_last, resolve_last]
          refine ite_congr rfl (fun _ => rfl) fun _ => endAt_congr hat fun target he slashed => ?_
          simp only [he, List.append_nil] at hrest
          exact ihb hrest
        · rw [resolve_name hr, resolve_name hr, hat]
          refine ite_congr rfl (fun _ => rfl) fun _ => ?_
          cases he : d.at? (s :: loc) with
          | none => rfl
          | some e =>
            simp only [he] at hrest
            cases e with
            | file content => rfl
            | directory => exact ih hrest
            | link target => exact ihb hrest

/-- Lookups on disks that agree where one looks find the same. -/
theorem find_congr (h : ∀ l ∈ d.looks p, new.at? l = d.at? l) :
    new.find purpose p = d.find purpose p := by
  unfold find
  exact ite_congr rfl (fun _ => rfl) fun _ => ite_congr rfl (fun _ => rfl) fun _ =>
    ite_congr rfl (fun _ => rfl) fun _ => resolve_congr h

/-- Entries are as they were, gone, or have become files. -/
def Fades (d new : Disk) : Prop :=
  ∀ l, new.at? l = d.at? l ∨ new.at? l = none ∨ ∃ content, new.at? l = some (.file content)

theorem Fades.sights_subset (h : Fades d new) : new.sights b loc parts ⊆ d.sights b loc parts := by
  induction b generalizing loc parts with
  | zero => exact List.Subset.refl _
  | succ b ihb =>
    induction parts generalizing loc with
    | nil => exact List.Subset.refl _
    | cons part rest ih =>
      cases part with
      | root => exact ih
      | here => exact ih
      | up => exact ih
      | name s =>
        rw [sights_name, sights_name]
        refine List.cons_subset_cons _ ?_
        rcases h (s :: loc) with he | he | ⟨content, he⟩
        · rw [he]
          rcases d.at? (s :: loc) with _ | (_ | content | target)
          · exact List.Subset.refl _
          · exact ih
          · exact List.Subset.refl _
          · exact ihb
        · simp [he]
        · simp [he]

theorem Fades.looks_subset (h : Fades d new) (p : String) : new.looks p ⊆ d.looks p :=
  h.sights_subset

theorem endAt_cases {jump : Location → Path.Route → Except FileFault Spot} {n : String}
    (h : d.endAt purpose slashed jump loc n = .ok spot) :
    spot.location = n :: loc ∧ spot.entry = d.at? (n :: loc) ∨
      ∃ target, d.at? (n :: loc) = some (.link target) ∧
        ∃ slashed, jump loc ⟨(Path.route target).parts, slashed⟩ = .ok spot := by
  unfold endAt at h
  split at h
  · cases h
    exact .inl ⟨rfl, rfl⟩
  split at h
  · cases h
  cases he : d.at? (n :: loc) with
  | none =>
    simp only [he] at h
    cases h
    exact .inl ⟨rfl, rfl⟩
  | some e =>
    simp only [he] at h
    cases e with
    | directory =>
      cases h
      exact .inl ⟨rfl, rfl⟩
    | file content =>
      cases slashed <;> cases h
      exact .inl ⟨rfl, rfl⟩
    | link target => exact .inr ⟨target, rfl, _, h⟩

/-- What is found, other than a directory, stands at a place that is looked at. -/
theorem resolve_sights (h : d.resolve purpose b loc ⟨parts, slashed⟩ = .ok spot)
    (hs : spot.entry ≠ some .directory) :
    spot.location ∈ d.sights b loc parts ∧ d.at? spot.location = spot.entry := by
  induction b generalizing loc parts slashed with
  | zero => cases h
  | succ b ihb =>
    induction parts generalizing loc with
    | nil =>
      cases h
      exact absurd rfl hs
    | cons part rest ih =>
      cases part with
      | root => exact ih h
      | here => exact ih h
      | up => exact ih h
      | name s =>
        rw [sights_name]
        by_cases hr : rest = []
        · subst hr
          rw [resolve_last] at h
          split at h
          · cases h
          rcases endAt_cases h with ⟨hl, he⟩ | ⟨target, he, slashed', ht⟩
          · rw [hl, he]
            exact ⟨List.mem_cons_self, rfl⟩
          · obtain ⟨hmem, hat⟩ := ihb ht
            simp only [he, List.append_nil]
            exact ⟨List.mem_cons_of_mem _ hmem, hat⟩
        · rw [resolve_name hr] at h
          split at h
          · cases h
          cases he : d.at? (s :: loc) with
          | none => simp [he] at h
          | some e =>
            cases e with
            | file content => simp [he] at h
            | directory =>
              simp only [he] at h
              exact ⟨List.mem_cons_of_mem _ (ih h).1, (ih h).2⟩
            | link target =>
              simp only [he] at h
              exact ⟨List.mem_cons_of_mem _ (ihb h).1, (ihb h).2⟩

theorem find_looks (h : d.find purpose p = .ok spot) (hs : spot.entry ≠ some .directory) :
    spot.location ∈ d.looks p ∧ d.at? spot.location = spot.entry :=
  resolve_sights (find_eq_ok.mp h).2 hs

theorem Leads.append {b'' : Nat} {loc'' : Location} {links' : List Location}
    (h : d.Leads b loc front b' loc' links) (h' : d.Leads b' loc' tail b'' loc'' links') :
    d.Leads b loc (front ++ tail) b'' loc'' (links ++ links') := by
  induction h with
  | done => exact h'
  | root _ ih => exact .root (ih h')
  | here _ ih => exact .here (ih h')
  | up _ ih => exact .up (ih h')
  | enter hs hd _ ih => exact .enter hs hd (ih h')
  | jump hs hl _ ih =>
    have hrest := ih h'
    rw [List.append_assoc] at hrest
    exact .jump hs hl hrest

/-- Parts by which a directory is found lead to it. -/
theorem exists_leads (h : d.resolve .visit (b + 1) loc ⟨parts, slashed⟩ = .ok spot)
    (hs : spot.entry = some .directory) : ∃ b' links, d.Leads b loc parts b' spot.location links := by
  induction b using Nat.strong_induction_on generalizing loc parts slashed with
  | _ b ih =>
    rcases List.eq_nil_or_concat' parts with rfl | ⟨front, part, rfl⟩
    · cases h
      exact ⟨b, [], .done⟩
    · obtain ⟨b', loc', links, hl, ht⟩ := Leads.of_resolve (by simp) h
      suffices hlast : ∃ b'' links', d.Leads b' loc' [part] b'' spot.location links' by
        obtain ⟨b'', links', hlast⟩ := hlast
        exact ⟨b'', links ++ links', hl.append hlast⟩
      cases part with
      | root => cases ht; exact ⟨b', [], .root .done⟩
      | here => cases ht; exact ⟨b', [], .here .done⟩
      | up => cases ht; exact ⟨b', [], .up .done⟩
      | name n =>
        rw [resolve_last] at ht
        split at ht
        · cases ht
        next hn =>
        have hn' := Nat.le_of_not_lt hn
        rcases endAt_cases ht with ⟨hloc, he⟩ | ⟨target, he, slashed', hj⟩
        · rw [hs] at he
          rw [hloc]
          exact ⟨b', [], .enter hn' he.symm .done⟩
        · cases b' with
          | zero => cases hj
          | succ b₁ =>
            obtain ⟨b'', links', hbeyond⟩ := ih b₁ hl.le hj
            exact ⟨b'', _, .jump hn' he (by rwa [List.append_nil])⟩

/-- Behind parts that lead somewhere, lookups look at what they look at from there, and before that
at directories and links. -/
theorem Leads.mem_sights (h : d.Leads b loc front b' loc' links) {l : Location} :
    (l ∈ d.sights (b' + 1) loc' tail → l ∈ d.sights (b + 1) loc (front ++ tail)) ∧
    (l ∈ d.sights (b + 1) loc (front ++ tail) → l ∈ d.sights (b' + 1) loc' tail ∨
      d.at? l = some .directory ∨ l ∈ links ∧ ∃ target, d.at? l = some (.link target)) := by
  induction h with
  | done => exact ⟨id, .inl⟩
  | root _ ih => exact ih
  | here _ ih => exact ih
  | up _ ih => exact ih
  | enter hs hd _ ih =>
    rw [List.cons_append, sights_name, hd]
    refine ⟨fun hm => List.mem_cons_of_mem _ (ih.1 hm), fun hm => ?_⟩
    rcases List.mem_cons.mp hm with rfl | hm
    · exact .inr (.inl hd)
    · exact ih.2 hm
  | @jump b loc s target rest b' loc' links hs hl _ ih =>
    rw [List.append_assoc] at ih
    rw [List.cons_append, sights_name, hl]
    refine ⟨fun hm => List.mem_cons_of_mem _ (ih.1 hm), fun hm => ?_⟩
    rcases List.mem_cons.mp hm with rfl | hm
    · exact .inr (.inr ⟨List.mem_cons_self, target, hl⟩)
    · rcases ih.2 hm with hm | hd | ⟨hm, hlink⟩
      · exact .inl hm
      · exact .inr (.inl hd)
      · exact .inr (.inr ⟨List.mem_cons_of_mem _ hm, hlink⟩)

theorem isDirectory_eq_true : d.isDirectory p = true ↔
    ∃ spot, d.find .visit p = .ok spot ∧ spot.entry = some .directory := by
  unfold isDirectory
  constructor
  · intro h
    split at h
    · next hf => exact ⟨_, hf, rfl⟩
    · cases h
  · rintro ⟨⟨_, _, _, _⟩, hf, rfl⟩
    simp only [hf]

/-- Where the names in a directory stand. -/
def home (d : Disk) (p : String) : Location := (d.course p).finish

theorem leads_home (h : d.isDirectory p = true) :
    ∃ b, d.Leads linkBudget [] (Path.route p).parts b (d.home p) (d.course p).links := by
  obtain ⟨spot, hf, hs⟩ := isDirectory_eq_true.mp h
  obtain ⟨b, links, hl⟩ := exists_leads (find_eq_ok.mp hf).2 hs
  have hc : d.course p = ⟨spot.location, links⟩ := hl.way_done (.refl d)
  exact ⟨b, by rw [home, hc]; exact hl⟩

/-- Looking up a directory, one looks at directories and links. -/
theorem at?_of_looks_directory (h : d.isDirectory p = true) {l : Location} (hl : l ∈ d.looks p) :
    d.at? l = some .directory ∨ l ∈ (d.course p).links ∧ ∃ target, d.at? l = some (.link target) := by
  obtain ⟨b, hleads⟩ := leads_home h
  rw [looks, ← List.append_nil (Path.route p).parts] at hl
  exact (hleads.mem_sights.2 hl).resolve_left (by simp [sights, scan])

/-- The links on the way to a directory are looked at. -/
theorem Leads.links_subset (h : d.Leads b loc parts b' loc' links) :
    links ⊆ d.sights (b + 1) loc parts := by
  induction h with
  | done => exact List.nil_subset _
  | root _ ih => exact ih
  | here _ ih => exact ih
  | up _ ih => exact ih
  | enter _ hd _ ih =>
    rw [sights_name, hd]
    exact List.subset_cons_of_subset _ ih
  | jump _ hl _ ih =>
    rw [sights_name, hl]
    exact List.cons_subset_cons _ ih

theorem links_course_subset (h : d.isDirectory p = true) : (d.course p).links ⊆ d.looks p := by
  obtain ⟨b, hleads⟩ := leads_home h
  exact hleads.links_subset

theorem resolve_name_of_directory (h : d.resolve .visit (b + 1) loc ⟨parts, slashed⟩ = .ok spot)
    (hs : spot.entry = some .directory) :
    ∃ named, d.resolve .name (b + 1) loc ⟨parts, slashed⟩ = .ok named ∧ named.entry ≠ none := by
  rcases List.eq_nil_or_concat' parts with rfl | ⟨front, part, rfl⟩
  · exact ⟨_, rfl, by simp⟩
  · obtain ⟨b', loc', links, hl, ht⟩ := Leads.of_resolve (by simp) h
    rw [hl.resolve (by simp)]
    cases part with
    | root => exact ⟨_, rfl, by simp⟩
    | here => exact ⟨_, rfl, by simp⟩
    | up => exact ⟨_, rfl, by simp⟩
    | name n =>
      rw [resolve_last] at ht ⊢
      split at ht
      · cases ht
      next hn =>
      refine ⟨⟨n :: loc', d.at? (n :: loc'), true, slashed⟩, if_neg hn, ?_⟩
      rcases endAt_cases ht with ⟨_, he⟩ | ⟨target, he, _⟩
      · simp [← he, hs]
      · simp [he]

/-- What is found as a directory is found by name as well. -/
theorem find_name_of_isDirectory (h : d.isDirectory p = true) :
    ∃ named, d.find .name p = .ok named ∧ named.entry ≠ none := by
  obtain ⟨spot, hf, hs⟩ := isDirectory_eq_true.mp h
  obtain ⟨hfit, hr⟩ := find_eq_ok.mp hf
  obtain ⟨named, hr, he⟩ := resolve_name_of_directory hr hs
  exact ⟨named, find_eq_ok.mpr ⟨hfit, hr⟩, he⟩

/-- Nothing is made of a directory that is there. -/
theorem makeDirectories_of_isDirectory (h : d.isDirectory p = true) :
    d.makeDirectories p = (.ok (), d) := by
  obtain ⟨spot, hf, hs⟩ := find_name_of_isDirectory h
  have hmake : d.makeDirectory p = .error .exists := by
    rw [makeDirectory, hf]
    cases he : spot.entry with
    | none => exact absurd he hs
    | some e => simp [bind, Except.bind, he]
  rw [makeDirectories, Path.ancestors, Path.ancestorsWithin]
  split
  · simp only [makeNested, hmake, settle, h, if_true]
  · rfl

theorem approach_join (d : Disk) (base : String) {n : String} (hn : Path.IsName n) :
    d.approach (Path.join base n) = ⟨n :: d.home base, (d.course base).links⟩ := by
  have hsteps : Path.around (Path.join base n) = Path.steps base := by
    rw [Path.around, Path.fileName?_join base hn, Path.steps_join base hn]
    exact List.dropLast_concat
  rw [approach, hsteps, Path.fileName?_join base hn]
  rfl

theorem place_join (d : Disk) (base : String) {n : String} (hn : Path.IsName n) :
    d.place (Path.join base n) = n :: d.home base := by
  rw [place, approach_join d base hn]

/-- Looking up a name in a directory, one looks up the directory. -/
theorem looks_join (d : Disk) (base : String) {n : String} (hn : Path.IsName n) :
    d.looks base ⊆ d.looks (Path.join base n) := by
  rw [looks, looks, Path.route_join base hn]
  exact sights_append

/-- A name in a directory is looked at where it stands. -/
theorem mem_looks_join {base n : String} (h : d.isDirectory base = true) (hn : Path.IsName n) :
    n :: d.home base ∈ d.looks (Path.join base n) := by
  obtain ⟨b, hl⟩ := leads_home h
  rw [looks, Path.route_join base hn]
  exact hl.mem_sights.1 List.mem_cons_self

/-- Looking up a name in a directory that is no link, one looks at directories and links before. -/
theorem at?_of_looks_join {base n : String} (h : d.isDirectory base = true) (hn : Path.IsName n)
    (hlink : ∀ target, d.at? (n :: d.home base) ≠ some (.link target)) {l : Location}
    (hl : l ∈ d.looks (Path.join base n)) : l = n :: d.home base ∨ d.at? l = some .directory ∨
      l ∈ (d.course base).links ∧ ∃ target, d.at? l = some (.link target) := by
  obtain ⟨b, hleads⟩ := leads_home h
  rw [looks, Path.route_join base hn] at hl
  refine (hleads.mem_sights.2 hl).imp_left fun hm => ?_
  rw [sights_name] at hm
  cases he : d.at? (n :: d.home base) with
  | none => simpa [he] using hm
  | some e =>
    cases e with
    | directory => simpa [he, sights, scan] using hm
    | file content => simpa [he] using hm
    | link target => exact absurd he (hlink target)

end NavTree.Disk
