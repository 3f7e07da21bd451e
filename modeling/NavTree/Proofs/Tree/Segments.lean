import NavTree.Proofs.Tree.Canonical
import NavTree.Proofs.Tree.Naming

/-! # Segments of routes

The names on the way to a screen accumulate, empty ones left out; then the text in the place of an
inline group is dropped. That place is counted with the empty names in it. So if a single name is
empty, the text that is dropped is the last one, which is the route of the screen itself.
-/
namespace NavTree

section Running

variable (soFar : String) (xs ys : List String)

theorem concat_concat (x : String) : concat (xs ++ [x]) = concat xs ++ x := by
  simp [concat_append, concat]

theorem running_append :
    running soFar (xs ++ ys) = running soFar xs ++ running (soFar ++ concat xs) ys := by
  induction xs generalizing soFar with
  | nil => simp [running, concat]
  | cons x xs ih => simp only [List.cons_append, running, ih, concat, String.append_assoc]

@[simp] theorem length_running : (running soFar xs).length = xs.length := by
  induction xs generalizing soFar with
  | nil => rfl
  | cons x xs ih => simp only [running, List.length_cons, ih]

theorem running_concat (x : String) :
    running soFar (xs ++ [x]) = running soFar xs ++ [soFar ++ concat xs ++ x] :=
  running_append soFar xs [x]

theorem concat_pair (x y : String) : concat (xs ++ [x, y]) = concat xs ++ x ++ y := by
  rw [← concat_concat, ← concat_concat, List.append_assoc]
  rfl

theorem running_pair (x y : String) :
    running soFar (xs ++ [x, y]) =
      running soFar xs ++ [soFar ++ concat xs ++ x, soFar ++ concat xs ++ x ++ y] :=
  running_append soFar xs [x, y]

theorem concat_filter : concat (xs.filter (· ≠ "")) = concat xs := by
  induction xs with
  | nil => rfl
  | cons x xs ih =>
    by_cases hx : x = ""
    · rw [List.filter_cons_of_neg (by simpa using hx), ih, concat, hx, String.empty_append]
    · rw [List.filter_cons_of_pos (by simpa using hx), concat, concat, ih]

variable {xs} in
theorem getLast?_running (h : xs ≠ []) : (running "" xs).getLast? = some (concat xs) := by
  rw [← List.dropLast_concat_getLast h, running_concat, List.getLast?_concat, concat_concat,
    String.empty_append]

variable {xs} in
/-- The last of the accumulated texts is the whole of the names, or there is no text at all. -/
theorem getLast?_running_getD : (running "" xs).getLast?.getD (concat xs) = concat xs := by
  by_cases h : xs = []
  · rw [h]
    rfl
  · rw [getLast?_running h, Option.getD_some]

end Running

theorem getLast?_eraseIdx {α : Type} {l : List α} {k : Nat} (h : k + 1 < l.length) :
    (l.eraseIdx k).getLast? = l.getLast? := by
  rw [List.getLast?_eq_getElem?, List.getLast?_eq_getElem?, List.length_eraseIdx_of_lt (by omega),
    List.getElem?_eraseIdx_of_ge (by omega)]
  congr 1
  omega

theorem dropInline_of_none {ls : List Link} (h : ∀ l ∈ ls, l.isInlineGroup = false)
    (texts : List String) : dropInline ls texts = texts := by
  induction ls generalizing texts with
  | nil => rfl
  | cons l ls ih =>
    obtain ⟨hl, hls⟩ := List.forall_mem_cons.mp h
    cases texts with
    | nil => rfl
    | cons x xs => simp [dropInline, hl, ih hls]

/-- An inline group behind other links drops the text in its place. -/
theorem dropInline_concat {ls : List Link} {l : Link} (h : ∀ l ∈ ls, l.isInlineGroup = false)
    (hl : l.isInlineGroup = true) (texts : List String) :
    dropInline (ls ++ [l]) texts = texts.eraseIdx ls.length := by
  induction ls generalizing texts with
  | nil => cases texts <;> simp [dropInline, hl]
  | cons l' ls ih =>
    obtain ⟨hl', hls⟩ := List.forall_mem_cons.mp h
    cases texts with
    | nil => rfl
    | cons x xs => simp [dropInline, hl', ih hls]

theorem Link.isInlineGroup_iff {l : Link} :
    l.isInlineGroup = true ↔ l.tag = .group ∧ l.reference = false := by
  simp [Link.isInlineGroup]

theorem Link.not_inline_of_named {l : Link} (h : l.isNamedNavigator = true) :
    l.isInlineGroup = false := by
  simp only [Link.isNamedNavigator, Bool.and_eq_true, beq_iff_eq] at h
  simp [Link.isInlineGroup, h.1]

namespace Trail

variable {t : Trail}

/-- The navigators around the container of a trail that contribute to names. -/
def around (t : Trail) : List Link := t.outer.reverse.filter Link.isNamedNavigator

theorem isReferenceGroup_iff :
    t.isReferenceGroup = true ↔ t.link.tag = .group ∧ t.link.reference = true := by
  simp [isReferenceGroup]

theorem layers_of_navigator (h : t.link.tag = .navigator) :
    t.layers = t.chain.filter Link.isNamedNavigator := by rw [layers, h]

theorem layers_of_reference (h : t.isReferenceGroup = true) : t.layers = [t.link] := by
  obtain ⟨htag, href⟩ := isReferenceGroup_iff.mp h
  rw [layers, htag, href]

theorem mem_chain_of_layers {l : Link} (h : l ∈ t.layers) : l ∈ t.chain := by
  have hself : t.link ∈ t.chain := List.mem_reverse.mpr List.mem_cons_self
  unfold layers at h
  split at h
  · exact (List.mem_filter.mp h).1
  · rw [List.mem_singleton.mp h]
    exact hself
  · exact (List.mem_filter.mp h).1

theorem layers_of_inline (h : t.link.isInlineGroup = true) (ho : t.InNavigators) :
    t.layers = t.around ++ [t.link] := by
  obtain ⟨htag, href⟩ := Link.isInlineGroup_iff.mp h
  have houter : t.outer.reverse.filter (fun l => l.isNamedNavigator || l.tag == .group) =
      t.around := by
    refine List.filter_congr fun l hl => ?_
    rw [ho l (List.mem_reverse.mp hl)]
    simp
  simp [layers, chain, htag, href, List.filter_append, houter]

end Trail

namespace Screen

variable {s : Screen}

/-- All names that the route of a screen is made of, its own last. -/
def allNames (s : Screen) : List String := s.parent.importPath ++ [s.name]

theorem routeLiteral_eq (s : Screen) : s.routeLiteral = concat s.allNames := by
  rw [allNames, concat_concat]
  rfl

theorem routeNames_of_not_reference (h : ¬ s.parent.isReferenceGroup = true) :
    s.routeNames = s.allNames := by simp [routeNames, h, allNames]

theorem routeSegments_of_navigator (h : s.parent.link.tag = .navigator) :
    s.routeSegments = running "" (s.allNames.filter (· ≠ "")) := by
  have hr : ¬ s.parent.isReferenceGroup = true := by simp [Trail.isReferenceGroup_iff, h]
  rw [routeSegments, routeNames_of_not_reference hr, Trail.layers_of_navigator h,
    dropInline_of_none fun l hl => Link.not_inline_of_named (List.mem_filter.mp hl).2]

theorem routeSegments_of_inline (h : s.parent.link.isInlineGroup = true)
    (ho : s.parent.InNavigators) :
    s.routeSegments =
      (running "" (s.allNames.filter (· ≠ ""))).eraseIdx s.parent.around.length := by
  have hr : ¬ s.parent.isReferenceGroup = true := by
    simp [Trail.isReferenceGroup_iff, (Link.isInlineGroup_iff.mp h).2]
  have haround : ∀ l ∈ s.parent.around, l.isInlineGroup = false :=
    fun l hl => Link.not_inline_of_named (List.mem_filter.mp hl).2
  rw [routeSegments, routeNames_of_not_reference hr, Trail.layers_of_inline h ho,
    dropInline_concat haround h]

theorem routeSegments_of_reference (h : s.parent.isReferenceGroup = true) :
    s.routeSegments = [s.routeLiteral].filter (· ≠ "") := by
  have hl : s.parent.link.isInlineGroup = false := by
    simp [Link.isInlineGroup, (Trail.isReferenceGroup_iff.mp h).2]
  have hn : s.routeNames = [s.routeLiteral] := by
    rw [routeNames, h, routeLiteral_eq]
    rfl
  rw [routeSegments, hn, Trail.layers_of_reference h, dropInline_of_none (by simpa using hl)]
  by_cases hempty : s.routeLiteral = "" <;> simp [hempty, running]

theorem length_allNames_of_inline (h : s.parent.link.isInlineGroup = true)
    (ho : s.parent.InNavigators) :
    s.allNames.length = s.parent.around.length + 2 := by
  simp [allNames, Trail.importPath, Trail.layers_of_inline h ho]

/-- What a builder leads to: the last segment, or the route name if there is no segment. -/
def lastSegment (s : Screen) : String := s.routeSegments.getLast?.getD s.routeLiteral

/-- The screen stands in an inline group below a navigator that contributes to names, and exactly
one of the names of its route, its own included, is empty. -/
structure Misaligned (s : Screen) : Prop where
  inline : s.parent.link.isInlineGroup = true
  nested : s.parent.around ≠ []
  single : s.allNames.count "" = 1

/-- The last segment is the route name, unless it was dropped in the place of the group. -/
theorem lastSegment_of_kept (h : s.routeSegments.getLast? =
    (running "" (s.allNames.filter (· ≠ ""))).getLast?) : s.lastSegment = s.routeLiteral := by
  rw [lastSegment, h, routeLiteral_eq, ← concat_filter, getLast?_running_getD]

theorem lastSegment_of_reference (h : s.parent.isReferenceGroup = true) :
    s.lastSegment = s.routeLiteral := by
  rw [lastSegment, routeSegments_of_reference h]
  by_cases hempty : s.routeLiteral = "" <;> simp [hempty]

/-- Every name is empty or accumulates. -/
theorem length_texts_add_count (s : Screen) :
    (running "" (s.allNames.filter (· ≠ ""))).length + s.allNames.count "" =
      s.allNames.length := by
  rw [length_running, ← List.countP_eq_length_filter,
    List.length_eq_countP_add_countP (fun name : String => decide (name ≠ "")), List.count]
  congr 1
  exact List.countP_congr fun name _ => by simp

theorem lastSegment_of_inline (h : s.parent.link.isInlineGroup = true)
    (ho : s.parent.InNavigators) (hm : ¬ s.Misaligned) :
    s.lastSegment = s.routeLiteral := by
  have hlen := length_allNames_of_inline h ho
  have hcount := s.length_texts_add_count
  have hseg := routeSegments_of_inline h ho
  by_cases hone : s.allNames.count "" = 1
  · -- Not below a navigator, the only text is in the place of the group: there is no segment.
    have haround : s.parent.around.length = 0 := by
      rw [List.length_eq_zero_iff]
      exact Classical.byContradiction fun hnested => hm ⟨h, hnested, hone⟩
    have hnil : s.routeSegments = [] := by
      rw [hseg, haround, List.eraseIdx_zero]
      apply List.eq_nil_of_length_eq_zero
      rw [List.length_tail]
      omega
    rw [lastSegment, hnil]
    rfl
  · -- The place of the group is before the last text, or behind it.
    refine lastSegment_of_kept ?_
    rw [hseg]
    by_cases hk : s.parent.around.length + 1 < (running "" (s.allNames.filter (· ≠ ""))).length
    · exact getLast?_eraseIdx hk
    · rw [List.eraseIdx_eq_self.mpr (by omega)]

/-- The text that is dropped from a misaligned route is the last one. -/
theorem Misaligned.lastSegment (hm : s.Misaligned) (ho : s.parent.InNavigators) :
    ∃ dropped, dropped ≠ "" ∧ s.routeLiteral = s.lastSegment ++ dropped := by
  have hlen := length_allNames_of_inline hm.inline ho
  have hcount := s.length_texts_add_count
  have hseg := routeSegments_of_inline hm.inline ho
  have hnested := List.length_pos_iff.mpr hm.nested
  rw [hm.single, length_running] at hcount
  rcases List.eq_nil_or_concat (s.allNames.filter (· ≠ "")) with hnil | ⟨kept, last, hsplit⟩
  · rw [hnil, List.length_nil] at hcount
    omega
  · rw [List.concat_eq_append] at hsplit
    have hlast : last ∈ s.allNames.filter (· ≠ "") := hsplit ▸ List.mem_concat_self
    have hne : last ≠ "" := by simpa using (List.mem_filter.mp hlast).2
    rw [hsplit, List.length_append, List.length_singleton] at hcount
    -- One text is missing, so the last one has moved to the place of the group.
    have hkept : s.routeSegments = running "" kept := by
      rw [hseg, hsplit, running_concat, List.eraseIdx_eq_dropLast (by simp; omega),
        List.dropLast_concat]
    have houter : kept ≠ [] := List.ne_nil_of_length_pos (by omega)
    refine ⟨last, hne, ?_⟩
    rw [routeLiteral_eq, ← concat_filter, hsplit, concat_concat, Screen.lastSegment, hkept,
      getLast?_running houter, Option.getD_some]

theorem lastSegment_eq_iff (ho : s.parent.InNavigators) :
    s.lastSegment = s.routeLiteral ↔ ¬ s.Misaligned := by
  constructor
  · intro he hm
    obtain ⟨dropped, hne, hd⟩ := hm.lastSegment ho
    have hempty : s.routeLiteral ++ "" = s.routeLiteral ++ dropped := by
      rw [String.append_empty, ← he, ← hd, he]
    exact hne (String.append_right_inj _ |>.mp hempty).symm
  · intro hm
    cases htag : s.parent.link.tag with
    | navigator => exact lastSegment_of_kept (by rw [routeSegments_of_navigator htag])
    | group =>
      cases href : s.parent.link.reference with
      | true => exact lastSegment_of_reference (Trail.isReferenceGroup_iff.mpr ⟨htag, href⟩)
      | false => exact lastSegment_of_inline (Link.isInlineGroup_iff.mpr ⟨htag, href⟩) ho hm

end Screen

namespace NavigatorHead

variable {n outer : NavigatorHead}

theorem importPath_top (hp : n.parent = none) (hr : n.root = true) : n.trail.importPath = [] := by
  rw [Trail.importPath, Trail.layers_of_navigator rfl, trail, hp, Trail.chain_push]
  simp [Trail.links, link, Link.isNamedNavigator, hr]

theorem importPath_nested (hp : n.parent = some outer.trail) (hr : n.root = false) :
    n.trail.importPath = outer.trail.importPath ++ [n.name] := by
  have hn : n.link.isNamedNavigator = true := by simp [link, Link.isNamedNavigator, hr]
  rw [Trail.importPath, Trail.importPath, Trail.layers_of_navigator rfl,
    Trail.layers_of_navigator rfl, trail, hp, Trail.chain_push, List.filter_append,
    List.map_append, List.filter_cons_of_pos hn]
  rfl

end NavigatorHead

namespace Navigator

/-- The stand-ins on the way down a list of navigators, each nested in the one before. -/
def standIns : List Navigator → List Screen
  | n :: child :: rest => n.childScreen child :: standIns (child :: rest)
  | [_] => []
  | [] => []

theorem standIns_concat (ns : List Navigator) (n child : Navigator) :
    standIns (ns ++ [n, child]) = standIns (ns ++ [n]) ++ [n.childScreen child] := by
  induction ns with
  | nil => rfl
  | cons m ns ih =>
    cases ns with
    | nil => rfl
    | cons m' ns => simpa [standIns] using ih

theorem childScreen_routeLiteral (n child : Navigator) :
    (n.childScreen child).routeLiteral = concat n.trail.importPath ++ child.name := by
  have hs : (n.childScreen child).parent.importSpecifier = n.trail.importSpecifier := by
    rw [Trail.importSpecifier_of_navigator rfl, Trail.importSpecifier_of_navigator rfl,
      childScreen_navigatorName]
  exact congrArg (· ++ child.name) hs

end Navigator

namespace Screen

variable {s : Screen}

/-- The screens registered around a screen on the way to it: the stand-ins of the nested navigators,
and none for a screen of a reference group. -/
def registered (s : Screen) (way : List Node) : List Screen :=
  if s.parent.isReferenceGroup then []
  else Navigator.standIns (way.filterMap Node.navigator?)

/-- In an inline group, the names of the navigator around it and of the group come before that of
the screen. -/
theorem importPath_of_inline {n : Navigator} {g : Group} (hr : g.reference = false)
    (hg : g.parent = some n.trail) (hs : s.parent = g.trail)
    (ho : s.parent.InNavigators) :
    s.parent.link.isInlineGroup = true ∧ s.parent.around.map (·.name) = n.trail.importPath ∧
      s.parent.importPath = n.trail.importPath ++ [g.name] := by
  have hinline : s.parent.link.isInlineGroup = true := by
    rw [hs, Link.isInlineGroup_iff]
    exact ⟨rfl, hr⟩
  have haround : s.parent.around.map (·.name) = n.trail.importPath := by
    rw [hs, Group.trail, hg, Trail.importPath, Trail.layers_of_navigator rfl]
    rfl
  refine ⟨hinline, haround, ?_⟩
  rw [Trail.importPath, Trail.layers_of_inline hinline ho, List.map_append, haround, hs]
  rfl

end Screen

namespace Tree

/-- The navigators of the top level are roots and no others are, and every node has a name. -/
structure Ordinary (t : Tree) : Prop where
  top : ∀ n ∈ t.navigators, n.root = true
  nested : ∀ way c (n : Navigator), t.Stands way c → n.node ∈ c.children → n.root = false
  named : ∀ way node, t.Stands way node → node.name ≠ ""

namespace Ordinary

variable {t : Tree} {way : List Node}

/-- The stand-ins on the way to a navigator spell the names that accumulate on it. -/
theorem standIns_literals (ho : t.Ordinary) (ht : t.Settled) {node : Node}
    (h : t.Stands way node) : ∀ n : Navigator, node = n.node →
      (Navigator.standIns (way.filterMap Node.navigator? ++ [n])).map Screen.routeLiteral =
        running "" n.trail.importPath := by
  induction h with
  | @navigator top h =>
    rintro n hn
    obtain rfl : top = n := Option.some.inj (congrArg Node.navigator? hn)
    rw [NavigatorHead.importPath_top (ht.navigators _ h).1 (ho.top _ h)]
    rfl
  | group h =>
    intro n hn
    cases hn
  | @child way c m hc hm ih =>
    rintro n rfl
    rcases Node.mem_children.mp hm with ⟨outer, rfl, hn⟩ | ⟨_, _, _, hs, _⟩
    · -- Only the root at the top adds no name, so each nested navigator adds one name and one text.
      have hroot : n.root = false := ho.nested _ _ n hc hm
      have hp : n.parent = some outer.trail := (ht.of_stands hc).parent hm
      have hway : way.filterMap Node.navigator? ++ [outer, n] =
          (way ++ [outer.node]).filterMap Node.navigator? ++ [n] := by
        simp [List.filterMap_append, Navigator.node, Node.navigator?]
      rw [← hway, Navigator.standIns_concat, List.map_append, ih outer rfl,
        NavigatorHead.importPath_nested hp hroot, running_concat, List.map_singleton,
        Navigator.childScreen_routeLiteral, String.empty_append]
    · cases hs

variable {s : Screen}

theorem named_parent (ho : t.Ordinary) (ht : t.Settled) {node : Node} (h : t.Stands way node)
    {parent : Trail} (hp : node.parent? = some parent) : ∀ l ∈ parent.chain, l.name ≠ "" := by
  intro l hl
  have hl : some l ∈ way.map Node.link? := by
    rw [ht.chain h hp]
    exact List.mem_map.mpr ⟨l, hl, rfl⟩
  obtain ⟨c, hc, hlink⟩ := List.mem_map.mp hl
  obtain ⟨outer, hs⟩ := h.container hc
  rw [Node.name_of_link hlink]
  exact ho.named _ _ hs

theorem filter_allNames (ho : t.Ordinary) (ht : t.Settled) (h : t.Stands way (.screen s)) :
    s.allNames.filter (· ≠ "") = s.allNames := by
  rw [List.filter_eq_self]
  intro name hname
  have hne : name ≠ "" := by
    rcases List.mem_append.mp hname with hn | hn
    · obtain ⟨l, hl, rfl⟩ := List.mem_map.mp hn
      exact ho.named_parent ht h rfl l (Trail.mem_chain_of_layers hl)
    · rw [List.mem_singleton.mp hn]
      exact ho.named _ _ h
  simpa using hne

theorem registered_reference {g : Group} (hp : s.parent = g.trail) (hr : g.reference = true) :
    s.parent.isReferenceGroup = true ∧ ∀ way, s.registered way = [] := by
  have href : s.parent.isReferenceGroup = true := by
    rw [hp, Trail.isReferenceGroup_iff]
    exact ⟨rfl, hr⟩
  exact ⟨href, fun _ => if_pos href⟩

/-- The names around an inline group accumulate to the route names of the stand-ins. -/
theorem registered_inline (ho : t.Ordinary) (ht : t.Settled) {g : Group}
    (hg : t.Stands way (.group g)) (hs : s ∈ g.children) (hr : g.reference = false) :
    s.registered (way ++ [.group g]) = Navigator.standIns (way.filterMap Node.navigator?) ∧
    ∃ names,
      (Navigator.standIns (way.filterMap Node.navigator?)).map Screen.routeLiteral =
        running "" names ∧
      s.allNames = names ++ [g.name, s.name] ∧ s.parent.around.length = names.length ∧
      s.parent.link.isInlineGroup = true := by
  have hp : s.parent = g.trail := (ht.of_stands hg).group_parent hs
  have hscreen : t.Stands (way ++ [.group g]) (.screen s) :=
    hg.child (List.mem_map.mpr ⟨s, hs, rfl⟩)
  rcases hg.group_cases with ⟨_, hd⟩ | ⟨outer, n, rfl, hn, hm⟩
  · have href := (ht.reference_iff hg).mpr (List.mem_map.mpr ⟨g, hd, rfl⟩)
    rw [hr] at href
    cases href
  · have hgp : g.parent = some n.trail := (ht.of_stands hn).parent hm
    obtain ⟨hinline, haround, hpath⟩ :=
      Screen.importPath_of_inline hr hgp hp (ht.in_navigators hscreen)
    have href : ¬ s.parent.isReferenceGroup = true := by
      rw [hp, Trail.isReferenceGroup_iff]
      rintro ⟨-, href⟩
      exact absurd (hr.symm.trans href) nofun
    refine ⟨?_, n.trail.importPath, ?_, ?_, ?_, hinline⟩
    · rw [Screen.registered, if_neg href, List.filterMap_append]
      exact congrArg Navigator.standIns (List.append_nil _)
    · rw [List.filterMap_append]
      exact ho.standIns_literals ht hn n rfl
    · rw [Screen.allNames, hpath, List.append_assoc]
      rfl
    · rw [← haround, List.length_map]

/-- The segments of a route are the route names of the screens registered on the way and of the
screen itself. -/
theorem routeSegments_eq (ho : t.Ordinary) (ht : t.Settled) (h : t.Stands way (.screen s)) :
    s.routeSegments = (s.registered way).map Screen.routeLiteral ++ [s.routeLiteral] := by
  have hfilter := ho.filter_allNames ht h
  rcases h.screen_cases with ⟨outer, n, rfl, hn, hs⟩ | ⟨outer, g, rfl, hg, hs⟩
  · have hp : s.parent = n.trail := (ht.of_stands hn).linked.screen hs
    have hr : ¬ s.parent.isReferenceGroup = true := by
      rw [hp, Trail.isReferenceGroup_iff]
      nofun
    have hway : (outer ++ [n.node]).filterMap Node.navigator? =
        outer.filterMap Node.navigator? ++ [n] := List.filterMap_append
    rw [Screen.routeSegments_of_navigator (hp ▸ rfl), hfilter, Screen.registered, if_neg hr, hway,
      ho.standIns_literals ht hn n rfl, Screen.routeLiteral_eq, Screen.allNames, running_concat, hp,
      concat_concat, String.empty_append]
  · have hp : s.parent = g.trail := (ht.of_stands hg).group_parent hs
    cases href : g.reference with
    | true =>
      obtain ⟨hr, hreg⟩ := registered_reference hp href
      have hne : s.routeLiteral ≠ "" := by
        intro hempty
        exact ho.named _ _ h (String.append_eq_empty_iff.mp hempty).2
      rw [Screen.routeSegments_of_reference hr, hreg]
      simp [hne]
    | false =>
      obtain ⟨hreg, names, hnames, hall, hlen, hinline⟩ := ho.registered_inline ht hg hs href
      have hplace : (running "" names).length ≤ names.length := Nat.le_of_eq (length_running _ _)
      rw [Screen.routeSegments_of_inline hinline (ht.in_navigators h), hfilter, hreg, hnames,
        hlen, Screen.routeLiteral_eq, hall, concat_pair, running_pair,
        List.eraseIdx_append_of_length_le hplace]
      simp

/-- An inline group adds no segment, but its name stands in front of that of the screen. -/
theorem routeLiteral_of_inline (ho : t.Ordinary) (ht : t.Settled) {g : Group}
    (hg : t.Stands way (.group g)) (hs : s ∈ g.children) (hr : g.reference = false) :
    s.routeLiteral =
      ((Navigator.standIns (way.filterMap Node.navigator?)).map Screen.routeLiteral).getLast?.getD
        "" ++ g.name ++ s.name := by
  obtain ⟨_, names, hnames, hall, _, _⟩ := ho.registered_inline ht hg hs hr
  have hlast : (running "" names).getLast?.getD "" = concat names := by
    by_cases hnil : names = []
    · rw [hnil]
      rfl
    · rw [getLast?_running hnil, Option.getD_some]
  rw [hnames, hlast, Screen.routeLiteral_eq, hall, concat_pair]

end Ordinary

end Tree

end NavTree
