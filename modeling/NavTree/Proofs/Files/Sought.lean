import NavTree.Proofs.Files.Gained
import NavTree.Proofs.Files.Order
import NavTree.Proofs.Files.Rewalk

/-! # Exact walks

Where no links are at or below its start, a walk finds just the files there whose name is looked
for, behind directories that are entered. It lists each of them once, by the path that leads to it
from the start, in the order of these paths.
-/
namespace NavTree.Disk

/-- Names lead on from a place to a file whose own name is looked for. None of the directories in
between is hidden or holds the code of others; the place itself is not asked. -/
structure Sought (d : Disk) (names : List String) (path : String) (start : Location)
    (ns : List String) : Prop where
  isName : ∀ n ∈ ns, Path.IsName n
  file : ∃ content, d.at? (ns.reverse ++ start) = some (.file content)
  named : ∃ n ∈ names, Path.fileName? (Path.below path ns) = some n
  entered : ∀ n ∈ ns.dropLast,
    n.toList.head? ≠ some '.' ∧ n ∉ ["node_modules", "android", "ios", "target"]

/-- No link stands at the place or below it. -/
def Linkfree (d : Disk) (loc : Location) : Prop :=
  ∀ inner target, (∀ n ∈ inner, Path.IsName n) → d.at? (inner ++ loc) ≠ some (.link target)

variable {d : Disk} {names ns : List String} {root s path n : String} {loc : Location}
  {around : List (Location × String)} {spot : Spot} {content : ByteArray} {e : Entry} {b : Nat}

theorem isSourceless_eq_false : isSourceless n = false ↔
    n.toList.head? ≠ some '.' ∧ n ∉ ["node_modules", "android", "ios", "target"] := by
  have hdot : n.startsWith "." = true ↔ n.toList.head? = some '.' := by
    rw [String.startsWith_string_iff]
    cases hn : n.toList <;> simp [eq_comm]
  rw [ne_eq, ← hdot, Bool.not_eq_true, isSourceless, Bool.or_eq_false_iff]
  exact and_congr_right fun _ => by simp [sourcelessNames]

/-- What something stands below is a directory. -/
theorem IsTree.directory (h : d.IsTree) {front : Location} (hne : front ≠ [])
    (he : d.at? (front ++ loc) = some e) : d.at? loc = some .directory := by
  induction front generalizing e with
  | nil => exact absurd rfl hne
  | cons n front ih =>
    rw [List.cons_append] at he
    have hd : d.at? (front ++ loc) = some .directory := h (by rw [he]; simp)
    by_cases hf : front = []
    · subst hf
      exact hd
    · exact ih hf hd

theorem reverse_cons_append (n : String) (ns : List String) (loc : Location) :
    (n :: ns).reverse ++ loc = ns.reverse ++ n :: loc := by
  rw [List.reverse_cons, List.append_assoc, List.singleton_append]

/-- A name in front of those that lead to a file, where a directory is entered. -/
theorem Sought.cons (h : d.Sought names (Path.join path n) (n :: loc) ns) (hn : Path.IsName n)
    (hs : isSourceless n = false) : d.Sought names path loc (n :: ns) := by
  refine ⟨List.forall_mem_cons.mpr ⟨hn, h.isName⟩, ?_, h.named, fun m hm => ?_⟩
  · rw [reverse_cons_append]
    exact h.file
  · cases ns with
    | nil => cases hm
    | cons k ks =>
      rw [List.dropLast_cons_cons] at hm
      rcases List.mem_cons.mp hm with rfl | hm
      · exact isSourceless_eq_false.mp hs
      · exact h.entered m hm

theorem Sought.tail (h : d.Sought names path loc (n :: ns)) (hne : ns ≠ []) :
    d.Sought names (Path.join path n) (n :: loc) ns := by
  obtain ⟨hname, hfile, hnamed, hentered⟩ := h
  rw [reverse_cons_append] at hfile
  rw [List.dropLast_cons_of_ne_nil hne] at hentered
  exact ⟨(List.forall_mem_cons.mp hname).2, hfile, hnamed, (List.forall_mem_cons.mp hentered).2⟩

theorem Linkfree.inside (h : d.Linkfree loc) (hn : Path.IsName n) : d.Linkfree (n :: loc) := by
  intro inner target hinner
  have hall : ∀ m ∈ inner ++ [n], Path.IsName m := forall_isName_concat hinner hn
  have hfree := h (inner ++ [n]) target hall
  rwa [List.append_assoc] at hfree

theorem Finds.exists_sought (htidy : d.Tidy) (hfree : d.Linkfree loc)
    (h : d.Finds names loc path around s) :
    ∃ ns, ns ≠ [] ∧ d.Sought names path loc ns ∧ s = Path.below path ns := by
  induction h with
  | @here loc path around n e hm hn hf =>
    obtain ⟨hname, he⟩ := htidy.mem_members.mp hm
    cases hf with
    | link => exact absurd he (hfree [n] _ (by simpa using hname))
    | @file content =>
      refine ⟨[n], by simp, ⟨by simpa using hname, ⟨content, he⟩, ?_, by simp⟩, rfl⟩
      exact ⟨n, hn, Path.fileName?_join path hname⟩
  | @inside loc path around n e inner s hm ho h ih =>
    obtain ⟨hname, he⟩ := htidy.mem_members.mp hm
    cases ho with
    | link => exact absurd he (hfree [n] _ (by simpa using hname))
    | directory hless =>
      obtain ⟨ns, -, hsought, hs⟩ := ih (hfree.inside hname)
      exact ⟨n :: ns, by simp, hsought.cons hname hless, hs⟩

/-- The walk goes the way that the names describe. -/
theorem Sought.finds (htidy : d.Tidy) (htree : d.IsTree) (h : d.Sought names path loc ns)
    (hne : ns ≠ []) : d.Finds names loc path around (Path.below path ns) := by
  induction ns generalizing loc path around with
  | nil => exact absurd rfl hne
  | cons n ns ih =>
    have hn : Path.IsName n := h.isName n List.mem_cons_self
    obtain ⟨content, hfile⟩ := h.file
    rw [reverse_cons_append] at hfile
    by_cases hlast : ns = []
    · subst hlast
      obtain ⟨k, hk, hname⟩ := h.named
      obtain rfl : n = k := Option.some.inj ((Path.fileName?_join path hn).symm.trans hname)
      exact .here (htidy.mem_members.mpr ⟨hn, hfile⟩) hk .file
    · have hd : d.at? (n :: loc) = some .directory :=
        htree.directory (by simpa using hlast) hfile
      have hless : isSourceless n = false := by
        refine isSourceless_eq_false.mpr (h.entered n ?_)
        rw [List.dropLast_cons_of_ne_nil hlast]
        exact List.mem_cons_self
      exact .inside (htidy.mem_members.mpr ⟨hn, hd⟩) (.directory hless) (ih (h.tail hlast) hlast)

theorem at?_of_find (htree : d.IsTree) (h : d.find .visit root = .ok spot) :
    d.at? spot.location = spot.entry := by
  by_cases hd : spot.entry = some .directory
  · obtain ⟨b, links, hleads⟩ := exists_leads (find_eq_ok.mp h).2 hd
    rw [hleads.at?_finish htree rfl, hd]
  · exact (find_looks h hd).2

/-- A path that leads to a file ends in a name. -/
theorem exists_fileName?_of_find (h : d.find .visit root = .ok spot)
    (hd : spot.entry ≠ some .directory) : ∃ n, Path.fileName? root = some n := by
  obtain ⟨front, n, slashed, hr⟩ := route_of_find h (.inl hd)
  exact ⟨n, (Path.route_named (congrArg Path.Route.parts hr)).1⟩

/-- Names lead on from directories, and from nothing else. -/
theorem Sought.nil_iff (htree : d.IsTree) (h : d.Sought names path loc ns) :
    ns = [] ↔ d.at? loc ≠ some .directory := by
  obtain ⟨content, hfile⟩ := h.file
  constructor
  · rintro rfl hd
    cases hd.symm.trans hfile
  · intro hd
    by_contra hne
    exact hd (htree.directory (by simpa using hne) hfile)

theorem source_iff (htidy : d.Tidy) (htree : d.IsTree)
    (hfree : ∀ spot, d.find .visit root = .ok spot → d.Linkfree spot.location) :
    .source s ∈ d.survey names root ↔ ∃ spot ns, d.find .visit root = .ok spot ∧
      d.Sought names root spot.location ns ∧ s = Path.below root ns := by
  rw [source_mem_survey]
  constructor
  · rintro ⟨spot, hfind, ⟨-, h⟩ | ⟨hsome, hd, rfl, hname⟩⟩
    · obtain ⟨ns, -, hsought, hs⟩ := h.exists_sought htidy (hfree spot hfind)
      exact ⟨spot, ns, hfind, hsought, hs⟩
    · have hat := at?_of_find htree hfind
      obtain ⟨n, hlast⟩ := exists_fileName?_of_find hfind hd
      rw [hlast] at hname
      obtain ⟨e, he⟩ := Option.ne_none_iff_exists'.mp hsome
      cases e with
      | directory => exact absurd he hd
      | link target => exact absurd (hat.trans he) (hfree spot hfind [] target (by simp))
      | file content =>
        exact ⟨spot, [], hfind, ⟨by simp, ⟨content, hat.trans he⟩, ⟨n, hname, hlast⟩, by simp⟩, rfl⟩
  · rintro ⟨spot, ns, hfind, hsought, rfl⟩
    have hat := at?_of_find htree hfind
    by_cases hd : spot.entry = some .directory
    · have hne : ns ≠ [] := fun hnil => (hsought.nil_iff htree).mp hnil (hat.trans hd)
      exact ⟨spot, hfind, .inl ⟨hd, hsought.finds htidy htree hne⟩⟩
    · obtain rfl := (hsought.nil_iff htree).mpr (by rwa [hat])
      obtain ⟨content, hfile⟩ := hsought.file
      obtain ⟨n, hn, hlast⟩ := hsought.named
      have he : spot.entry = some (.file content) := hat.symm.trans hfile
      have hname : Path.fileName? root = some n := hlast
      exact ⟨spot, hfind, .inr ⟨by simp [he], hd, rfl, by rwa [hname]⟩⟩

theorem route_below_of_ne_nil (hns : ∀ n ∈ ns, Path.IsName n) (hne : ns ≠ []) :
    Path.route (Path.below root ns) = ⟨(Path.route root).parts ++ ns.map .name, false⟩ := by
  obtain rfl | ⟨dirs, n, rfl⟩ := List.eq_nil_or_concat' ns
  · exact absurd rfl hne
  · have hn : Path.IsName n := hns n (by simp)
    have hdirs : ∀ k ∈ dirs, Path.IsName k := fun k hk => hns k (List.mem_append_left _ hk)
    rw [← join_below, Path.route_join _ hn, route_below hdirs, List.map_append, List.append_assoc]
    rfl

theorem Sought.resolve (htree : d.IsTree) (h : d.Sought names path loc ns) (hne : ns ≠ [])
    (hfile : d.at? (ns.reverse ++ loc) = some (.file content))
    (hshort : ∀ n ∈ ns, n.utf8ByteSize ≤ longestName) :
    d.resolve .visit (b + 1) loc ⟨ns.map .name, false⟩ =
      .ok ⟨ns.reverse ++ loc, some (.file content), true, false⟩ := by
  induction ns generalizing loc path with
  | nil => exact absurd rfl hne
  | cons n ns ih =>
    obtain ⟨hn, hrest⟩ := List.forall_mem_cons.mp hshort
    rw [reverse_cons_append] at hfile ⊢
    by_cases hlast : ns = []
    · subst hlast
      have hat : d.at? (n :: loc) = some (.file content) := hfile
      rw [List.map_singleton, resolve_last, if_neg (Nat.not_lt_of_le hn),
        endAt_of_not_link (by simp [hat]), hat]
      rfl
    · have hd : d.at? (n :: loc) = some .directory :=
        htree.directory (by simpa using hlast) hfile
      rw [List.map_cons, resolve_name (by simpa using hlast), if_neg (Nat.not_lt_of_le hn), hd]
      exact ih (h.tail hlast) hlast hfile hrest

/-- A path that is found reads as the file that the names lead to. -/
theorem Sought.read (htree : d.IsTree) (hfind : d.find .visit root = .ok spot)
    (h : d.Sought names root spot.location ns)
    (hfile : d.at? (ns.reverse ++ spot.location) = some (.file content))
    (hfit : Fit (Path.below root ns)) (hshort : ∀ n ∈ ns, n.utf8ByteSize ≤ longestName) :
    d.read (Path.below root ns) = .ok content := by
  have hat := at?_of_find htree hfind
  by_cases hnil : ns = []
  · subst hnil
    exact read_eq_ok.mpr ⟨spot, hfind, hat.symm.trans hfile⟩
  · have hd : spot.entry = some .directory := by
      by_contra hd
      exact hnil ((h.nil_iff htree).mpr (by rwa [hat]))
    obtain ⟨b, links, hleads⟩ : ∃ b links,
        d.Leads linkBudget [] (Path.route root).parts b spot.location links :=
      exists_leads (find_eq_ok.mp hfind).2 hd
    have hroute : Path.route (Path.below root ns) =
        ⟨(Path.route root).parts ++ ns.map .name, false⟩ := route_below_of_ne_nil h.isName hnil
    have hend : d.find .visit (Path.below root ns) =
        .ok ⟨ns.reverse ++ spot.location, some (.file content), true, false⟩ := by
      rw [find_eq_ok, hroute, hleads.resolve (by simpa using hnil)]
      exact ⟨hfit, h.resolve htree hnil hfile hshort⟩
    exact read_eq_ok.mpr ⟨_, hend, rfl⟩

/-- A list of paths that lists all files of a kind at or below a root, each once, in order. -/
structure ListsSought (d : Disk) (names : List String) (root : String) (found : List String) :
    Prop where
  mem_iff : ∀ s, s ∈ found ↔ ∃ spot ns, d.find .visit root = .ok spot ∧
    d.Sought names root spot.location ns ∧ s = Path.below root ns
  apart : ∀ {spot ns ms}, d.find .visit root = .ok spot → d.Sought names root spot.location ns →
    d.Sought names root spot.location ms → Path.below root ns = Path.below root ms → ns = ms
  sorted : found.Pairwise fun s t => Path.compareParts (Path.parts s) (Path.parts t) = .lt
  reads : ∀ {spot ns content}, d.find .visit root = .ok spot →
    d.Sought names root spot.location ns →
    d.at? (ns.reverse ++ spot.location) = some (.file content) → Fit (Path.below root ns) →
    (∀ n ∈ ns, n.utf8ByteSize ≤ longestName) → d.read (Path.below root ns) = .ok content

/-- Where no links are, the sources that are found are exactly the files that are sought. -/
theorem sources_exact (htidy : d.Tidy) (htree : d.IsTree) (names : List String) (root : String)
    (hfree : ∀ spot, d.find .visit root = .ok spot → d.Linkfree spot.location) :
    d.ListsSought names root (Finding.sources (d.survey names root)) := by
  refine ⟨fun s => ?_, fun hfind hns hms he => ?_, ?_, fun hfind h => h.read htree hfind⟩
  · rw [mem_sources, source_iff htidy htree hfree]
  · exact below_inj hns.isName hms.isName (congrArg Path.parts he)
  · have hnodup : (Finding.sources (d.survey names root)).Nodup :=
      (List.mergeSort_perm _ _).nodup_iff.mpr (htidy.sources_nodup names root)
    have htrans : ∀ p q r : String, Path.le p q = true → Path.le q r = true → Path.le p r = true :=
      fun _ _ _ => Path.le_trans
    have hsorted : (Finding.sources (d.survey names root)).Pairwise fun s t => Path.le s t = true :=
      List.pairwise_mergeSort htrans Path.le_total _
    refine (hsorted.and hnodup).imp_of_mem fun {s t} hs ht hle => ?_
    obtain ⟨hle, hne⟩ := hle
    cases hc : Path.compareParts (Path.parts s) (Path.parts t) with
    | lt => rfl
    | eq =>
      rw [mem_sources] at hs ht
      rw [Path.compareParts_eq] at hc
      exact absurd (eq_of_parts_of_survey htidy.named hs ht (Std.LawfulEqCmp.eq_of_compare hc)) hne
    | gt => simp [Path.le, hc] at hle

/-- Names of directories that are not entered, also as names of files. -/
def vendorDisk : Disk :=
  ⟨[(["app"], .directory), ([".nav", "app"], .file .empty), (["ios", "app"], .file .empty),
    (["target", "app"], .directory), (["nav", "target", "app"], .file .empty),
    ([".git"], .directory), (["nav", ".git"], .file .empty), (["nav"], .file .empty),
    (["node_modules"], .directory), (["nav", "node_modules"], .file .empty)]⟩

def vendorNames : List String := ["nav", ".nav", "ios"]

theorem vendorDisk_tidy : vendorDisk.Tidy := by
  refine ⟨by decide, fun x hx n hn => ?_⟩
  have hname : n ∈ ["app", ".nav", "ios", "target", "nav", ".git", "node_modules"] := by
    simp only [vendorDisk, List.mem_cons, List.not_mem_nil, or_false] at hx
    rcases hx with rfl | rfl | rfl | rfl | rfl | rfl | rfl | rfl | rfl | rfl <;> simp_all
  have hall : ∀ n ∈ ["app", ".nav", "ios", "target", "nav", ".git", "node_modules"],
      n.toList ≠ [] ∧ '/' ∉ n.toList ∧ n.toList ≠ ['.'] ∧ n.toList ≠ ['.', '.'] := by decide
  obtain ⟨h₁, h₂, h₃, h₄⟩ := hall n hname
  exact ⟨h₁, h₂, h₃, h₄⟩

theorem vendorDisk_isTree : vendorDisk.IsTree := by
  apply isTree_of_entries
  intro x hx
  simp only [vendorDisk, List.mem_cons, List.not_mem_nil, or_false] at hx
  rcases hx with rfl | rfl | rfl | rfl | rfl | rfl | rfl | rfl | rfl | rfl <;> rfl

/-- The walk leaves out hidden directories and those of vendors, but not one that it starts in. -/
theorem vendor_sources_exact :
    vendorDisk.Tidy ∧ vendorDisk.IsTree ∧
    (∀ root spot, vendorDisk.find .visit root = .ok spot → vendorDisk.Linkfree spot.location) ∧
    vendorDisk.ListsSought vendorNames "." ["./app/.nav", "./app/ios", "./nav"] ∧
    vendorDisk.ListsSought vendorNames "node_modules" ["node_modules/nav"] := by
  have hfree : ∀ root spot, vendorDisk.find .visit root = .ok spot →
      vendorDisk.Linkfree spot.location :=
    fun _ _ _ _ _ _ => vendorDisk.not_link_of_entries (by simp [vendorDisk]) _ _
  have hhere : (vendorDisk.survey vendorNames ".").filterMap Finding.source? =
      ["./app/.nav", "./app/ios", "./nav"] := by decide +kernel
  have hinside : (vendorDisk.survey vendorNames "node_modules").filterMap Finding.source? =
      ["node_modules/nav"] := by decide +kernel
  have hfound := sources_exact vendorDisk_tidy vendorDisk_isTree vendorNames "." (hfree ".")
  have hfound' := sources_exact vendorDisk_tidy vendorDisk_isTree vendorNames "node_modules"
    (hfree "node_modules")
  rw [Finding.sources, hhere, List.mergeSort_of_pairwise (by decide +kernel)] at hfound
  rw [Finding.sources, hinside, List.mergeSort_singleton] at hfound'
  exact ⟨vendorDisk_tidy, vendorDisk_isTree, hfree, hfound, hfound'⟩

end NavTree.Disk
