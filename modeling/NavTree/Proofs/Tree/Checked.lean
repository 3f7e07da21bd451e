import NavTree.Proofs.Outline.Fragment
import NavTree.Proofs.Tree.Linked

/-! # Checks of an outline

What an outline has to satisfy to be a tree, as checks of single places in the order in which they
are made. Normalization succeeds exactly if all of them hold, and its fault names the place of the
first one that does not.
-/
namespace NavTree

namespace NodeOutline

/-- The node is the other one or stands in it, at any depth. -/
inductive Within (n : NodeOutline) : NodeOutline → Prop
  | self : Within n n
  | navigator {o children c} (hc : c ∈ children) (h : Within n c) : Within n (.navigator o children)
  | group {o children c} (hc : c ∈ children) (h : Within n c) : Within n (.group o children)

def FitProps (props : Option JsonObject) : Prop := ∀ fields ∈ props, Json.SoundRecord fields

/-- Params as a whole may be a code fragment, props may not. -/
def FitParams (params : Option JsonObject) : Prop := ∀ fields ∈ params, (Json.object fields).Sound

/-- What a node has to satisfy by itself: groups hold screens only, and tagged objects are
fragments. -/
def Fits : NodeOutline → Prop
  | navigator o _ => FitProps o.props
  | group o children => (∀ c ∈ children, c.tag = .screen) ∧ FitProps o.props
  | screen o => FitProps o.props ∧ FitParams o.params

end NodeOutline

structure Outline.WellFormed (o : Outline) : Prop where
  groups : ∀ n ∈ o.groups, n.tag = .group
  navigators : ∀ n ∈ o.navigators, n.tag = .navigator
  nodes : ∀ top ∈ o.groups ++ o.navigators, ∀ n : NodeOutline, n.Within top → n.Fits

inductive Check where
  | kind (place : Place) (expected found : NodeTag)
  | props (place : Place) (fields : JsonObject)
  | params (place : Place) (fields : JsonObject)

namespace Check

def Holds : Check → Prop
  | kind _ expected found => found = expected
  | props _ fields => Json.SoundRecord fields
  | params _ fields => (Json.object fields).Sound

/-- The place that a fault begins with. -/
def text : Check → String
  | kind place _ _ => place.text
  | props place _ => place.text ++ ".props"
  | params place _ => place.text ++ ".params"

def Blames (c : Check) (fault : DecodeFault) : Prop :=
  ∃ reason, fault.message = c.text ++ ": " ++ reason

end Check

namespace NodeOutline

def propsChecks (place : Place) (props : Option JsonObject) : List Check :=
  props.toList.map (.props place)

def paramsChecks (place : Place) (params : Option JsonObject) : List Check :=
  params.toList.map (.params place)

mutual

/-- The checks of a node whose kind is right: its children, its props, its params. -/
def checks (place : Place) : NodeOutline → List Check
  | .navigator o children => childChecks none place 0 children ++ propsChecks place o.props
  | .group o children => childChecks (some .screen) place 0 children ++ propsChecks place o.props
  | .screen o => propsChecks place o.props ++ paramsChecks place o.params

/-- The checks of children one after another, the first of them standing at index `i`. The kind
that they must have comes first, if there is one. -/
def childChecks (kind : Option NodeTag) (place : Place) : Nat → List NodeOutline → List Check
  | _, [] => []
  | i, o :: rest =>
    kind.toList.map (.kind (place.child i) · o.tag) ++ checks (place.child i) o
      ++ childChecks kind place (i + 1) rest

end

end NodeOutline

/-- The kinds of the declared groups, then the navigators, then the bodies of the declared groups. -/
def Outline.checks (o : Outline) : List Check :=
  (o.groups.zipIdx.map fun n => .kind ⟨true, n.2, []⟩ .group n.1.tag)
    ++ (o.navigators.zipIdx.flatMap fun n =>
      .kind ⟨false, n.2, []⟩ .navigator n.1.tag :: n.1.checks ⟨false, n.2, []⟩)
    ++ o.groups.zipIdx.flatMap fun n => n.1.checks ⟨true, n.2, []⟩

variable {α β : Type} {checks checks' : List Check} {job : Decoded α}

/-- A computation succeeds if all checks hold, and else blames the first that does not. -/
inductive Follows : List Check → Decoded α → Prop
  | accepts {checks a} (h : ∀ c ∈ checks, c.Holds) : Follows checks (.ok a)
  | refuses {earlier c later fault} (h : ∀ b ∈ earlier, b.Holds) (hc : ¬ c.Holds)
    (hb : c.Blames fault) : Follows (earlier ++ c :: later) (.error fault)

namespace Follows

theorem first (h : Follows checks job) {fault : DecodeFault} (he : job = .error fault) :
    ∃ earlier c later, checks = earlier ++ c :: later ∧ (∀ b ∈ earlier, b.Holds) ∧ ¬ c.Holds ∧
      c.Blames fault := by
  cases h with
  | accepts h => cases he
  | refuses h hc hb =>
    cases he
    exact ⟨_, _, _, rfl, h, hc, hb⟩

theorem nothing (a : α) : Follows [] (.ok a) := .accepts (by simp)

/-- The checks of a part come before those of what follows it. -/
theorem bind {next : α → Decoded β} (h : Follows checks job)
    (hn : ∀ a, job = .ok a → Follows checks' (next a)) :
    Follows (checks ++ checks') (job >>= next) := by
  cases h with
  | @accepts _ a h =>
    have hrest := hn a rfl
    change Follows _ (next a)
    generalize next a = rest at hrest
    cases hrest with
    | accepts h' => exact .accepts (List.forall_mem_append.mpr ⟨h, h'⟩)
    | refuses h' hc hb =>
      rw [← List.append_assoc]
      exact .refuses (List.forall_mem_append.mpr ⟨h, h'⟩) hc hb
  | refuses h hc hb =>
    rw [List.append_assoc]
    exact .refuses h hc hb

/-- What comes after the last check does not fail. -/
theorem map (h : Follows checks job) (f : α → β) :
    Follows checks (job >>= fun a => pure (f a)) := by
  have hmap := h.bind fun a _ => nothing (f a)
  rwa [List.append_nil] at hmap

theorem refuse {c : Check} {fault : DecodeFault} (hc : ¬ c.Holds) (hb : c.Blames fault) :
    Follows (c :: checks) (.error fault : Decoded α) := by
  have hrefuses : Follows ([] ++ c :: checks) (.error fault : Decoded α) := .refuses nofun hc hb
  exact hrefuses

theorem after {c : Check} (hc : c.Holds) (h : Follows checks job) : Follows (c :: checks) job := by
  cases h with
  | accepts h => exact .accepts (List.forall_mem_cons.mpr ⟨hc, h⟩)
  | refuses h hc' hb => exact .refuses (List.forall_mem_cons.mpr ⟨hc, h⟩) hc' hb

/-- A part that can fail for one reason only. -/
theorem single {c : Check} (h : (∃ a, job = .ok a) ↔ c.Holds)
    (hb : ∀ fault, job = .error fault → c.Blames fault) : Follows [c] job := by
  cases hj : job with
  | ok a => exact .accepts (by simpa using h.mp ⟨a, hj⟩)
  | error fault => exact refuse (mt h.mpr (by simp [hj])) (hb fault hj)

end Follows

theorem blames_wrongTag (place : Place) (expected found : NodeTag) :
    (Check.kind place expected found).Blames (.wrongTag place expected found) := by
  have hmessage : (DecodeFault.wrongTag place expected found).message =
      place.text ++ ": expected " ++ expected.text ++ ", found " ++ found.text := rfl
  have hsplit : ": expected " = ": " ++ "expected " := by decide
  refine ⟨"expected " ++ expected.text ++ ", found " ++ found.text, ?_⟩
  rw [hmessage, Check.text, hsplit]
  simp only [String.append_assoc]

theorem within_error {place : Place} {field : Section} {fault : DecodeFault}
    (h : within place field job = .error fault) :
    ∃ inner : DecodeFault, fault.message = place.text ++ "." ++ field.text ++ ": " ++ inner.message := by
  cases job with
  | ok a => cases h
  | error inner =>
    cases h
    exact ⟨inner, rfl⟩

/-- A part that may be missing is checked if it is there. -/
theorem Follows.within {fields : Option JsonObject} {read : JsonObject → Decoded α} {place : Place}
    {field : Section} {check : JsonObject → Check}
    (hread : ∀ f, (∃ a, read f = .ok a) ↔ (check f).Holds)
    (htext : ∀ f, (check f).text = place.text ++ "." ++ field.text) :
    Follows (fields.toList.map check) (within place field (fields.mapM read)) := by
  cases fields with
  | none => exact .nothing _
  | some f =>
    refine .single ?_ ?_
    · rw [NavTree.within, exists_mapError_ok, ← hread f]
      exact exists_map_ok
    · intro fault h
      obtain ⟨inner, hi⟩ := within_error h
      exact ⟨inner.message, by rw [hi, htext]⟩

theorem readProps_follows (place : Place) (props : Option JsonObject) :
    Follows (NodeOutline.propsChecks place props) (readProps place props) :=
  .within (fun _ => Record.ofObject_isOk) fun _ => by
    simp [Check.text, Section.text, String.append_assoc]

namespace Surroundings

variable {env : Surroundings}

theorem screen_follows (parent : Trail) (place : Place) (o : ScreenOutline) :
    Follows ((NodeOutline.screen o).checks place) (env.screen parent place o) := by
  rw [NodeOutline.checks, screen]
  refine (readProps_follows place o.props).bind fun props _ => ?_
  refine Follows.map ?_ _
  exact .within (fun _ => Params.ofObject_isOk) fun _ => by
    simp [Check.text, Section.text, String.append_assoc]

theorem screens_follow (parent : Trail) (place : Place) (i : Nat) (os : List NodeOutline) :
    Follows (NodeOutline.childChecks (some .screen) place i os)
      (env.screens parent place i os) := by
  induction os generalizing i with
  | nil => exact .nothing _
  | cons o rest ih =>
    rw [NodeOutline.childChecks]
    cases o with
    | screen o =>
      exact Follows.after rfl ((screen_follows parent _ o).bind fun s _ => (ih _).map _)
    | navigator o children => exact .refuse (by simp [Check.Holds, NodeOutline.tag]) (blames_wrongTag _ _ _)
    | group o children => exact .refuse (by simp [Check.Holds, NodeOutline.tag]) (blames_wrongTag _ _ _)

theorem group_follows (parent : Option Trail) (reference : Bool) (place : Place)
    (o : GroupOutline) (children : List NodeOutline) :
    Follows ((NodeOutline.group o children).checks place)
      (env.group parent reference place o children) := by
  rw [NodeOutline.checks, group]
  exact (screens_follow _ place 0 children).bind fun _ _ => (readProps_follows place o.props).map _

theorem head_follows (parent : Option Trail) (place : Place) (o : NavigatorOutline) :
    Follows (NodeOutline.propsChecks place o.props) (env.head parent place o) :=
  (readProps_follows place o.props).map _

mutual

theorem node_follows (parent : Trail) (place : Place) :
    ∀ o : NodeOutline, Follows (o.checks place) (env.node parent place o)
  | .navigator o children => by
    rw [NodeOutline.checks, node]
    exact (nodes_follow _ place 0 children).bind fun _ _ => (head_follows _ place o).map _
  | .group o children => by
    rw [node]
    exact (group_follows _ _ place o children).map _
  | .screen o => by
    rw [node]
    exact (screen_follows parent place o).map _

theorem nodes_follow (parent : Trail) (place : Place) : ∀ (i : Nat) (os : List NodeOutline),
    Follows (NodeOutline.childChecks none place i os) (env.nodes parent place i os)
  | _, [] => .nothing _
  | i, o :: rest => by
    rw [NodeOutline.childChecks, nodes]
    exact (node_follows parent _ o).bind fun _ _ => (nodes_follow parent place (i + 1) rest).map _

end

end Surroundings

namespace NodeOutline

variable {m : NodeOutline} {place : Place}

theorem within_navigator {o : NavigatorOutline} {children : List NodeOutline} :
    m.Within (.navigator o children) ↔
      m = .navigator o children ∨ ∃ c ∈ children, m.Within c := by
  constructor
  · intro h
    cases h with
    | self => exact .inl rfl
    | navigator hc h => exact .inr ⟨_, hc, h⟩
  · rintro (rfl | ⟨c, hc, h⟩)
    · exact .self
    · exact .navigator hc h

theorem within_group {o : GroupOutline} {children : List NodeOutline} :
    m.Within (.group o children) ↔ m = .group o children ∨ ∃ c ∈ children, m.Within c := by
  constructor
  · intro h
    cases h with
    | self => exact .inl rfl
    | group hc h => exact .inr ⟨_, hc, h⟩
  · rintro (rfl | ⟨c, hc, h⟩)
    · exact .self
    · exact .group hc h

theorem within_screen {o : ScreenOutline} : m.Within (.screen o) ↔ m = .screen o := by
  constructor
  · intro h
    cases h
    rfl
  · rintro rfl
    exact .self

theorem propsChecks_hold {props : Option JsonObject} :
    (∀ c ∈ propsChecks place props, c.Holds) ↔ FitProps props := by
  simp [propsChecks, FitProps, Check.Holds]

theorem paramsChecks_hold {params : Option JsonObject} :
    (∀ c ∈ paramsChecks place params, c.Holds) ↔ FitParams params := by
  simp [paramsChecks, FitParams, Check.Holds]

/-- Of a container and what stands in it, only the container is opened. -/
theorem forall_within {n : NodeOutline} {children : List NodeOutline}
    (h : ∀ m : NodeOutline, m.Within n ↔ m = n ∨ ∃ c ∈ children, m.Within c) :
    (∀ m : NodeOutline, m.Within n → m.Fits) ↔
      n.Fits ∧ ∀ c ∈ children, ∀ m : NodeOutline, m.Within c → m.Fits := by
  simp only [h]
  constructor
  · exact fun hall => ⟨hall n (.inl rfl), fun c hc m hm => hall m (.inr ⟨c, hc, hm⟩)⟩
  · rintro ⟨hn, hc⟩ m (rfl | ⟨c, hm, hw⟩)
    · exact hn
    · exact hc c hm m hw

mutual

theorem checks_hold (place : Place) : ∀ n : NodeOutline,
    (∀ c ∈ n.checks place, c.Holds) ↔ ∀ m : NodeOutline, m.Within n → m.Fits
  | .navigator o children => by
    rw [checks, List.forall_mem_append, childChecks_hold none place 0 children, propsChecks_hold,
      forall_within fun _ => within_navigator, Fits]
    simp [and_comm]
  | .group o children => by
    rw [checks, List.forall_mem_append, childChecks_hold (some .screen) place 0 children,
      propsChecks_hold, forall_within fun _ => within_group, Fits]
    simp [and_assoc, and_comm]
  | .screen o => by
    rw [checks, List.forall_mem_append, propsChecks_hold, paramsChecks_hold]
    simp [within_screen, Fits]

theorem childChecks_hold (kind : Option NodeTag) (place : Place) : ∀ (i : Nat)
    (os : List NodeOutline), (∀ c ∈ childChecks kind place i os, c.Holds) ↔
      (∀ o ∈ os, ∀ k ∈ kind, o.tag = k) ∧
        ∀ o ∈ os, ∀ m : NodeOutline, m.Within o → m.Fits
  | _, [] => by simp [childChecks]
  | i, o :: rest => by
    have hkind : (∀ c ∈ kind.toList.map (Check.kind (place.child i) · o.tag), c.Holds) ↔
        ∀ k ∈ kind, o.tag = k := by
      simp [Check.Holds]
    rw [childChecks, List.forall_mem_append, List.forall_mem_append, hkind, checks_hold _ o,
      childChecks_hold kind place (i + 1) rest, List.forall_mem_cons, List.forall_mem_cons]
    exact and_and_and_comm

end

end NodeOutline

/-- The checks of an outline hold exactly if it is well-formed. -/
theorem Outline.checks_hold {o : Outline} : (∀ c ∈ o.checks, c.Holds) ↔ o.WellFormed := by
  have hindex : ∀ {P : NodeOutline → Prop} (os : List NodeOutline),
      (∀ n ∈ os.zipIdx, P n.1) ↔ ∀ n ∈ os, P n := by
    intro P os
    have hfst : os.zipIdx.map Prod.fst = os := List.zipIdx_map_fst 0 os
    constructor
    · intro h n hn
      rw [← hfst] at hn
      obtain ⟨indexed, hi, rfl⟩ := List.mem_map.mp hn
      exact h indexed hi
    · exact fun h indexed hi => h _ (hfst ▸ List.mem_map_of_mem hi)
  have hkinds : (∀ c ∈ o.groups.zipIdx.map fun n => Check.kind ⟨true, n.2, []⟩ .group n.1.tag,
      c.Holds) ↔ ∀ n ∈ o.groups, n.tag = .group := by
    rw [← hindex, List.forall_mem_map]
    rfl
  have hnavigators : (∀ c ∈ o.navigators.zipIdx.flatMap fun n =>
      Check.kind ⟨false, n.2, []⟩ .navigator n.1.tag :: n.1.checks ⟨false, n.2, []⟩, c.Holds) ↔
      ∀ n ∈ o.navigators, n.tag = .navigator ∧ ∀ m : NodeOutline, m.Within n → m.Fits := by
    rw [← hindex, List.forall_mem_flatMap]
    simp only [List.forall_mem_cons, NodeOutline.checks_hold]
    rfl
  have hgroups : (∀ c ∈ o.groups.zipIdx.flatMap fun n => n.1.checks ⟨true, n.2, []⟩, c.Holds) ↔
      ∀ n ∈ o.groups, ∀ m : NodeOutline, m.Within n → m.Fits := by
    rw [← hindex, List.forall_mem_flatMap]
    simp only [NodeOutline.checks_hold]
  rw [Outline.checks, List.forall_mem_append, List.forall_mem_append, hkinds, hnavigators, hgroups]
  constructor
  · rintro ⟨⟨hk, hn⟩, hg⟩
    refine ⟨hk, fun n h => (hn n h).1, fun top h => ?_⟩
    rcases List.mem_append.mp h with h | h
    · exact hg top h
    · exact (hn top h).2
  · rintro ⟨hk, hn, hin⟩
    exact ⟨⟨hk, fun n h => ⟨hn n h, hin n (List.mem_append_right _ h)⟩⟩,
      fun n h => hin n (List.mem_append_left _ h)⟩

namespace Plain

end Plain

end NavTree
