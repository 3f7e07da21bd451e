import NavTree.Proofs.Files.Grown
import NavTree.Proofs.Files.Walk

/-! # Walks on changed disks

Where entries have only gone or become files, a walk finds what it found before if nothing has
changed on the way to its sources, at the names that it looks for, and behind links of these names.
Other links may lead elsewhere: they matter only where a source is found behind them.
-/
namespace NavTree.Disk

variable {d old new : Disk} {names : List String} {root s path n : String}
  {loc loc' inner : Location} {around : List (Location × String)} {e : Entry} {b b' : Nat} {parts front tail : List PathPart}
  {links : List Location}

theorem Leads.raise (h : d.Leads b loc parts b' loc' links) (k : Nat) :
    d.Leads (b + k) loc parts (b' + k) loc' links := by
  induction h with
  | done => exact .done
  | root _ ih => exact .root ih
  | here _ ih => exact .here ih
  | up _ ih => exact .up ih
  | enter hs hd _ ih => exact .enter hs hd ih
  | @jump b loc s target rest b' loc' links hs hl _ ih =>
    rw [Nat.add_right_comm b 1 k]
    exact .jump hs hl ih

theorem Leads.dots {dots : List PathPart} (hp : ∀ part ∈ dots, part = .here)
    (h : d.Leads b loc parts b' loc' links) : d.Leads b loc (dots ++ parts) b' loc' links := by
  induction dots with
  | nil => exact h
  | cons part dots ih =>
    obtain ⟨rfl, hrest⟩ := List.forall_mem_cons.mp hp
    exact .here (ih hrest)

theorem exists_dots {part : PathPart} {rest : List PathPart}
    (h : parts.filter (· ≠ .here) = part :: rest) : ∃ dots rest', parts = dots ++ part :: rest' ∧
      (∀ p ∈ dots, p = .here) ∧ rest'.filter (· ≠ .here) = rest := by
  obtain ⟨dots, rest', rfl, hdots, -, hrest⟩ := List.filter_eq_cons_iff.mp h
  exact ⟨dots, rest', rfl, fun p hp => by simpa using hdots p hp, hrest⟩

/-- Dots do not matter to where parts lead. -/
theorem Leads.congr_dots {parts' : List PathPart} (h : d.Leads b loc parts b' loc' links)
    (he : parts'.filter (· ≠ .here) = parts.filter (· ≠ .here)) :
    d.Leads b loc parts' b' loc' links := by
  induction h generalizing parts' with
  | @done b loc =>
    have hdots : ∀ part ∈ parts', part = .here := by simpa using he
    have h : d.Leads b loc (parts' ++ []) b loc [] := .dots hdots .done
    rwa [List.append_nil] at h
  | root h ih =>
    rw [List.filter_cons_of_pos (by simp)] at he
    obtain ⟨dots, rest', rfl, hdots, hrest⟩ := exists_dots he
    exact .dots hdots (.root (ih hrest))
  | here _ ih => exact ih he
  | up _ ih =>
    rw [List.filter_cons_of_pos (by simp)] at he
    obtain ⟨dots, rest', rfl, hdots, hrest⟩ := exists_dots he
    exact .dots hdots (.up (ih hrest))
  | enter hs hd _ ih =>
    rw [List.filter_cons_of_pos (by simp)] at he
    obtain ⟨dots, rest', rfl, hdots, hrest⟩ := exists_dots he
    exact .dots hdots (.enter hs hd (ih hrest))
  | jump hs hl _ ih =>
    rw [List.filter_cons_of_pos (by simp)] at he
    obtain ⟨dots, rest', rfl, hdots, hrest⟩ := exists_dots he
    refine .dots hdots (.jump hs hl (ih ?_))
    rw [List.filter_append, List.filter_append, hrest]

/-- Where parts lead there is a directory. -/
theorem Leads.resolve_directory (h : d.Leads b loc parts b' loc' links) (slashed : Bool) :
    ∃ spot, d.resolve .visit (b + 1) loc ⟨parts, slashed⟩ = .ok spot ∧ spot.location = loc' ∧
      spot.entry = some .directory := by
  induction h generalizing slashed with
  | done => exact ⟨_, rfl, rfl, rfl⟩
  | root _ ih => exact ih slashed
  | here _ ih => exact ih slashed
  | up _ ih => exact ih slashed
  | @enter b loc s rest b' loc' links hs hd h ih =>
    by_cases hr : rest = []
    · subst hr
      cases h
      rw [resolve_last, if_neg (Nat.not_lt_of_le hs)]
      unfold endAt
      rw [if_neg (by decide), if_neg (by simp)]
      simp only [hd]
      exact ⟨_, rfl, rfl, rfl⟩
    · rw [resolve_name hr, if_neg (Nat.not_lt_of_le hs), hd]
      exact ih slashed
  | @jump b loc s target rest b' loc' links hs hl h ih =>
    by_cases hr : rest = []
    · subst hr
      rw [resolve_last, if_neg (Nat.not_lt_of_le hs), endAt_link hl]
      simp only [List.append_nil] at ih
      exact ih _
    · rw [resolve_name hr, if_neg (Nat.not_lt_of_le hs), hl]
      exact ih slashed

theorem Leads.enter_directory (h : d.Leads b loc [.name n] b' loc' links) (hb : b ≤ linkBudget) :
    ∃ spot, d.enter loc n = .ok spot ∧ spot.location = loc' ∧ spot.entry = some .directory := by
  have hraised := h.raise (linkBudget - b)
  rw [Nat.add_sub_of_le hb] at hraised
  exact hraised.resolve_directory false

/-- Parts lead to where they led if nothing has changed where one looks. -/
theorem Leads.congr_sights (h : d.Leads b loc parts b' loc' links)
    (hs : ∀ l ∈ d.sights (b + 1) loc parts, new.at? l = d.at? l) :
    new.Leads b loc parts b' loc' links := by
  induction h with
  | done => exact .done
  | root _ ih => exact .root (ih hs)
  | here _ ih => exact .here (ih hs)
  | up _ ih => exact .up (ih hs)
  | enter hname hd _ ih =>
    rw [sights_name, hd, List.forall_mem_cons] at hs
    exact .enter hname (hs.1.trans hd) (ih hs.2)
  | jump hname hl _ ih =>
    rw [sights_name, hl, List.forall_mem_cons] at hs
    exact .jump hname (hs.1.trans hl) (ih hs.2)

theorem Fades.keeps_back (h : Fades old new) (links : List Location) : Keeps new old links := by
  constructor
  · intro loc hd
    rcases h loc with he | he | ⟨content, he⟩
    · rw [← he, hd]
    · simp [he] at hd
    · simp [he] at hd
  · intro loc target _ hl
    exact h.toOver.link hl

theorem route_below {ns : List String} (hns : ∀ k ∈ ns, Path.IsName k) (path : String) :
    (Path.route (Path.below path ns)).parts = (Path.route path).parts ++ ns.map .name := by
  induction ns generalizing path with
  | nil => simp [Path.below]
  | cons n ns ih =>
    obtain ⟨hn, hrest⟩ := List.forall_mem_cons.mp hns
    have hbelow := ih hrest (Path.join path n)
    rw [Path.route_join path hn, List.append_assoc] at hbelow
    exact hbelow

theorem route_join_below {dirs : List String} {m : String} (hdirs : ∀ k ∈ dirs, Path.IsName k)
    (hm : Path.IsName m) (path : String) : (Path.route (Path.join (Path.below path dirs) m)).parts =
      (Path.route path).parts ++ (dirs.map .name ++ [.name m]) := by
  rw [Path.route_join _ hm, route_below hdirs, List.append_assoc]

/-- A walk is where the path leads that it has come by. -/
def Follows (d : Disk) (path : String) (loc : Location) : Prop :=
  ∀ {b b' loc' links}, d.Leads b [] (Path.route path).parts b' loc' links → loc' = loc

theorem Follows.of_find {spot : Spot} (h : d.find .visit path = .ok spot)
    (hd : spot.entry = some .directory) : d.Follows path spot.location := by
  intro b b' loc' links hleads
  obtain ⟨c, links', hspot⟩ := exists_leads (find_eq_ok.mp h).2 hd
  exact hleads.unique hspot

/-- Behind a name, a walk is where that name leads. -/
theorem Follows.join (h : d.Follows path loc) (hn : Path.IsName n)
    (hone : ∀ {b b' loc' links}, d.Leads b loc [.name n] b' loc' links → loc' = inner) :
    d.Follows (Path.join path n) inner := by
  intro b b' loc' links hleads
  rw [Path.route_join path hn] at hleads
  obtain ⟨c, mid, l, l', hfront, hlast⟩ := hleads.split
  obtain rfl := h hfront
  exact hone hlast

/-- The names behind a directory that a walk is in lead on to the directory of a source. -/
theorem Follows.leads {dirs : List String} {m : String} (h : d.Follows path loc)
    (hdirs : ∀ k ∈ dirs, Path.IsName k) (hm : Path.IsName m)
    (hdir : d.isDirectory (Path.outputDirectory (Path.join (Path.below path dirs) m)) = true) :
    ∃ c c' home l l', d.Leads linkBudget [] (Path.route path).parts c loc l ∧
      d.Leads c loc (dirs.map .name) c' home l' := by
  obtain ⟨b, hleads⟩ := leads_home hdir
  have hsteps := Path.steps_outputDirectory (Path.fileName?_join (Path.below path dirs) hm)
  rw [Path.steps_join _ hm, List.append_left_inj, Path.steps, Path.steps] at hsteps
  have hbelow := hleads.congr_dots hsteps
  rw [route_below hdirs] at hbelow
  obtain ⟨c, mid, l, l', hfront, hrest⟩ := hbelow.split
  obtain rfl := h hfront
  exact ⟨c, b, _, l, l', hfront, hrest⟩

theorem mem_putEntry {es : List (Location × Entry)} {x : Location × Entry}
    (h : x ∈ putEntry loc e es) : x = (loc, e) ∨ x ∈ es := by
  induction es with
  | nil => exact .inl (List.mem_singleton.mp h)
  | cons y es ih =>
    obtain ⟨l, held⟩ := y
    rw [putEntry] at h
    split at h
    · exact (List.mem_cons.mp h).imp_right (List.mem_cons_of_mem _)
    · rcases List.mem_cons.mp h with rfl | h
      · exact .inr List.mem_cons_self
      · exact (ih h).imp_right (List.mem_cons_of_mem _)

theorem putEntry_nodup {es : List (Location × Entry)} (h : (es.map (·.1)).Nodup) :
    ((putEntry loc e es).map (·.1)).Nodup := by
  induction es with
  | nil => exact List.nodup_singleton loc
  | cons y es ih =>
    obtain ⟨l, held⟩ := y
    obtain ⟨hl, hes⟩ := List.nodup_cons.mp h
    rw [putEntry]
    split
    next he => exact he ▸ h
    next hne =>
      refine List.nodup_cons.mpr ⟨fun hm => ?_, ih hes⟩
      obtain ⟨x, hx, hxl⟩ := List.mem_map.mp hm
      rcases mem_putEntry hx with rfl | hx
      · exact hne hxl.symm
      · exact hl (List.mem_map.mpr ⟨x, hx, hxl⟩)

theorem Tidy.edit (h : d.Tidy) {x : Location × Option ByteArray}
    (hx : ∀ n ∈ x.1.head?, Path.IsName n) : (d.edit x).Tidy := by
  obtain ⟨loc, _ | content⟩ := x
  · refine ⟨h.once.sublist (List.filter_sublist.map _), fun y hy => ?_⟩
    exact h.named y (List.mem_of_mem_filter hy)
  · refine ⟨putEntry_nodup h.once, fun y hy => ?_⟩
    rcases mem_putEntry hy with rfl | hy
    · exact hx
    · exact h.named y hy

theorem Tidy.edits (h : d.Tidy) {xs : List (Location × Option ByteArray)}
    (hx : ∀ x ∈ xs, ∀ n ∈ x.1.head?, Path.IsName n) : (d.edits xs).Tidy := by
  induction xs generalizing d with
  | nil => exact h
  | cons x xs ih =>
    obtain ⟨hx, hxs⟩ := List.forall_mem_cons.mp hx
    exact ih (h.edit hx) hxs

/-- What has changed is not on the way to the sources of a walk, not at the names that it looks for,
and not behind links of these names. -/
structure KeepsWalk (old new : Disk) (names : List String) (root : String) : Prop where
  fades : Fades old new
  sought : ∀ n ∈ names, ∀ loc, new.at? (n :: loc) = old.at? (n :: loc)
  links : ∀ n ∈ names, ∀ loc target, old.at? (n :: loc) = some (.link target) →
    ∀ l ∈ old.sights (linkBudget + 1) loc [.name n], new.at? l = old.at? l
  directory : ∀ s, .source s ∈ old.survey names root → old.isDirectory (Path.outputDirectory s) = true
  sources : ∀ s, .source s ∈ old.survey names root → ∀ l ∈ old.looks s, new.at? l = old.at? l

namespace KeepsWalk

variable (hkeeps : KeepsWalk old new names root)
include hkeeps

theorem enter_eq {target : String} (hn : n ∈ names) (hl : old.at? (n :: loc) = some (.link target)) :
    new.enter loc n = old.enter loc n :=
  resolve_congr (hkeeps.links n hn loc target hl)

theorem offersFile_iff (hn : n ∈ names) (he : old.at? (n :: loc) = some e) :
    new.OffersFile loc n e ↔ old.OffersFile loc n e := by
  constructor
  · intro h
    cases h with
    | file => exact .file
    | link hf hne hd => exact .link (by rw [← hkeeps.enter_eq hn he, hf]) hne hd
  · intro h
    cases h with
    | file => exact .file
    | link hf hne hd => exact .link (by rw [hkeeps.enter_eq hn he, hf]) hne hd

/-- Into what a walk goes now it went before. -/
theorem opens_before (h : new.Opens around loc n e inner) : old.Opens around loc n e inner := by
  cases h with
  | directory hs => exact .directory hs
  | @link target spot he hd hfree hs =>
    obtain ⟨b', links, hleads⟩ := exists_leads he hd
    have hold := hleads.mono (hkeeps.fades.keeps_back links)
    obtain ⟨spot', he', hloc, hd'⟩ := hold.enter_directory (Nat.le_refl _)
    rw [← hloc] at hfree ⊢
    exact .link he' hd' hfree hs

theorem at?_before (h : new.at? loc = some e) (hne : ∀ content, e ≠ .file content) :
    old.at? loc = some e := by
  rcases hkeeps.fades loc with he | he | ⟨content, he⟩
  · rw [← he, h]
  · simp [he] at h
  · exact absurd (Option.some.inj (h.symm.trans he)) (hne content)

theorem finds_before (htidy : old.Tidy) (htidy' : new.Tidy)
    (h : new.Finds names loc path around s) : old.Finds names loc path around s := by
  induction h with
  | @here loc path around n e hm hn hf =>
    obtain ⟨hname, he⟩ := htidy'.mem_members.mp hm
    rw [hkeeps.sought n hn] at he
    exact .here (htidy.mem_members.mpr ⟨hname, he⟩) hn ((hkeeps.offersFile_iff hn he).mp hf)
  | @inside loc path around n e inner s hm ho h ih =>
    obtain ⟨hname, he⟩ := htidy'.mem_members.mp hm
    have hold : old.at? (n :: loc) = some e := by
      apply hkeeps.at?_before he
      intro content
      cases ho <;> simp
    exact .inside (htidy.mem_members.mpr ⟨hname, hold⟩) (hkeeps.opens_before ho) ih

/-- Behind which names a source was found, there one goes on into the same directories. -/
theorem opens_after (hfollows : old.Follows path loc) {dirs : List String} {m : String}
    (hn : Path.IsName n) (hdirs : ∀ k ∈ dirs, Path.IsName k) (hm : Path.IsName m)
    (hs : .source (Path.join (Path.below path (n :: dirs)) m) ∈ old.survey names root)
    (he : old.at? (n :: loc) = some e) (ho : old.Opens around loc n e inner) :
    new.at? (n :: loc) = some e ∧ new.Opens around loc n e inner ∧
      old.Follows (Path.join path n) inner := by
  have hall : ∀ k ∈ n :: dirs, Path.IsName k := List.forall_mem_cons.mpr ⟨hn, hdirs⟩
  obtain ⟨c, c', home, l, l', hfront, hrest⟩ :=
    hfollows.leads hall hm (hkeeps.directory _ hs)
  have hlooks := hkeeps.sources _ hs
  rw [looks, route_join_below hall hm] at hlooks
  have hfurther : old.sights (c + 1) loc [.name n] ⊆
      old.sights (c + 1) loc ([.name n] ++ (dirs.map .name ++ [.name m])) := sights_append
  have hsame : ∀ x ∈ old.sights (c + 1) loc [.name n], new.at? x = old.at? x :=
    fun x hx => hlooks x (hfront.mem_sights.1 (hfurther hx))
  have hat : new.at? (n :: loc) = some e := by
    rw [hsame _ (by rw [sights_name]; exact List.mem_cons_self), he]
  have hnames : old.Leads c loc ([.name n] ++ dirs.map .name) c' home l' := hrest
  obtain ⟨c₁, mid, l₁, l₂, hone, -⟩ := hnames.split
  refine ⟨hat, ?_⟩
  cases ho with
  | directory hs =>
    refine ⟨.directory hs, hfollows.join hn fun hleads => ?_⟩
    cases hleads with
    | enter _ _ h => cases h; rfl
    | jump _ hl _ => simp [he] at hl
  | @link target spot hspot hd hfree hs =>
    obtain ⟨b', links, hbehind⟩ := exists_leads hspot hd
    obtain rfl := hone.unique hbehind
    obtain ⟨spot', he', hloc, hd'⟩ := (hone.congr_sights hsame).enter_directory hfront.le
    rw [← hloc] at hfree ⊢
    exact ⟨.link he' hd' hfree hs, hfollows.join hn fun hleads => hloc ▸ hleads.unique hbehind⟩

theorem finds_after (htidy : old.Tidy) (htidy' : new.Tidy) (hfollows : old.Follows path loc)
    (hs : .source s ∈ old.survey names root) (h : old.Finds names loc path around s) :
    new.Finds names loc path around s := by
  induction h with
  | @here loc path around n e hm hn hf =>
    obtain ⟨hname, he⟩ := htidy.mem_members.mp hm
    have hnew : new.at? (n :: loc) = some e := by rw [hkeeps.sought n hn, he]
    exact .here (htidy'.mem_members.mpr ⟨hname, hnew⟩) hn ((hkeeps.offersFile_iff hn he).mpr hf)
  | @inside loc path around n e inner s hm ho h ih =>
    obtain ⟨hname, he⟩ := htidy.mem_members.mp hm
    obtain ⟨dirs, m, hdirs, hm', rfl⟩ := h.exists_below htidy.named
    obtain ⟨hnew, ho', hfollows'⟩ := hkeeps.opens_after hfollows hname hdirs hm' hs he ho
    exact .inside (htidy'.mem_members.mpr ⟨hname, hnew⟩) ho' (ih hfollows' hs)

/-- On the way to a source, one looks where one looks to find the root. -/
theorem find_root (htidy : old.Tidy) (hs : .source s ∈ old.survey names root) :
    new.find .visit root = old.find .visit root := by
  obtain ⟨ns, hns, rfl⟩ := exists_below_of_survey htidy.named hs
  have hlooks := hkeeps.sources _ hs
  rw [looks, route_below hns] at hlooks
  exact find_congr fun l hl => hlooks l (sights_append hl)

/-- If there is a source at all, the same sources are found again. -/
theorem source_mem_iff (htidy : old.Tidy) (htidy' : new.Tidy)
    (hex : ∃ t, .source t ∈ old.survey names root) :
    .source s ∈ new.survey names root ↔ .source s ∈ old.survey names root := by
  obtain ⟨t, ht⟩ := hex
  have hroot := hkeeps.find_root htidy ht
  constructor
  · intro h
    obtain ⟨spot, hf, hspot⟩ := source_mem_survey.mp h
    rw [hroot] at hf
    refine source_mem_survey.mpr ⟨spot, hf, hspot.imp_left ?_⟩
    rintro ⟨hd, hfinds⟩
    exact ⟨hd, hkeeps.finds_before htidy htidy' hfinds⟩
  · intro h
    obtain ⟨spot, hf, hspot⟩ := source_mem_survey.mp h
    refine source_mem_survey.mpr ⟨spot, hroot.trans hf, hspot.imp_left ?_⟩
    rintro ⟨hd, hfinds⟩
    exact ⟨hd, hkeeps.finds_after htidy htidy' (Follows.of_find hf hd) h hfinds⟩

end KeepsWalk

end NavTree.Disk
