import NavTree.Proofs.Code.SharedGroup
import NavTree.Proofs.Tree.Bare
import NavTree.Proofs.Tree.Listed
import NavTree.Proofs.Tree.Parts

/-! # The screens of a flattened tree

Of all screens below the navigators that share a name and the name of their container, flattening
keeps the first in depth-first declaration order. Its list is a part of the listing of the screens.
-/
namespace NavTree

section Firsts

variable {α κ : Type} [BEq κ] (key : α → κ)

theorem firsts_sublist (seen : List κ) (l : List α) : (firsts key seen l).Sublist l := by
  induction l generalizing seen with
  | nil => exact .slnil
  | cons a as ih =>
    rw [firsts]
    split
    · exact (ih seen).cons a
    · exact (ih _).cons_cons a

variable {key} [LawfulBEq κ]

theorem exists_mem_firsts {l : List α} {a : α} (h : a ∈ l) :
    ∃ b ∈ firsts key [] l, key b = key a := by
  obtain ⟨b, hb⟩ : ∃ b, l.find? (fun c => key c == key a) = some b :=
    Option.isSome_iff_exists.mp (List.find?_isSome.mpr ⟨a, h, beq_self_eq_true _⟩)
  have hkey : key b = key a := by simpa using List.find?_some hb
  exact ⟨b, mem_firsts.mpr ⟨List.not_mem_nil, hkey ▸ hb⟩, hkey⟩

/-- In a list in order, what is kept comes before all others with its key. -/
theorem before_of_mem_firsts {R : α → α → Prop} {l : List α} {a b : α} (hl : l.Pairwise R)
    (hb : b ∈ firsts key [] l) (ha : a ∈ l) (hkey : key a = key b) : a = b ∨ R b a := by
  obtain ⟨-, before, after, rfl, hbefore⟩ := List.find?_eq_some_iff_append.mp (mem_firsts.mp hb).2
  rcases List.mem_append.mp ha with ha | ha
  · exact absurd (hbefore a ha) (by simp [hkey])
  · rcases List.mem_cons.mp ha with rfl | ha
    · exact .inl rfl
    · exact .inr ((List.pairwise_cons.mp (List.pairwise_append.mp hl).2.1).1 a ha)

end Firsts

def Node.screen? : Node → Option Screen
  | screen s => some s
  | _ => none

theorem Node.eq_of_screen? {n : Node} {s : Screen} (h : n.screen? = some s) : n = .screen s := by
  cases n with
  | screen s' => exact congrArg screen (Option.some.inj h)
  | navigator head children => cases h
  | group g => cases h

theorem Event.screen?_eq (e : Event) : e.screen? = e.own?.bind Node.screen? := by
  cases e <;> rfl

namespace Tree

variable {t : Tree}

theorem screensOf_walk_eq (t : Tree) :
    screensOf (t.walk everything) = (t.listedBy Node.screen?).map (·.2) := by
  rw [map_snd_listedBy, ← nodesOf_walk, nodesOf, List.filterMap_filterMap, screensOf]
  exact List.filterMap_congr fun e _ => e.screen?_eq

/-- A screen stands in a container, after which its key is named. -/
theorem Settled.key_eq (ht : t.Settled) {p : Place} {s : Screen}
    (h : (p, s) ∈ t.listedBy Node.screen?) : ∃ outer i c,
      p = Place.child outer i ∧ t.nodeAt? outer = some c ∧ s.key = (s.name, c.name) := by
  obtain ⟨hp, n, hn, hs⟩ := ((t.lists Node.screen?).mem_iff p s).mp h
  obtain rfl := Node.eq_of_screen? hs
  obtain ⟨declared, index, children⟩ := p
  obtain rfl : declared = false := hp
  cases children with
  | nil =>
    obtain ⟨top, htop, hat⟩ := Option.bind_eq_some_iff.mp hn
    obtain ⟨m, -, rfl⟩ := List.mem_map.mp (List.mem_of_getElem? htop)
    cases hat
  | cons i rest =>
    have hchild : t.nodeAt? (Place.child ⟨false, index, rest⟩ i) = some (.screen s) := hn
    rw [nodeAt?_child] at hchild
    obtain ⟨c, hc, hi⟩ := Option.bind_eq_some_iff.mp hchild
    have hnodes : c ∈ t.nodes := by
      rw [← map_snd_listed]
      exact List.mem_map_of_mem (f := (·.2)) (mem_listed.mpr ⟨rfl, hc⟩)
    have hmem : .screen s ∈ c.children := List.mem_of_getElem? hi
    have hparent : some s.parent = c.trail? := (ht.of_mem_nodes hnodes).parent hmem
    obtain ⟨l, hl⟩ := Node.exists_link hmem
    rw [Node.trail?, hl] at hparent
    have hlink : s.parent.link = l := congrArg Trail.link (Option.some.inj hparent)
    exact ⟨_, i, c, rfl, hc, by rw [Screen.key, hlink, Node.name_of_link hl]⟩

end Tree

/-- How the screens of a flattened tree follow from their depth-first listing. -/
structure Tree.FirstKept (t : Tree) (listing kept : List (Place × Screen)) : Prop where
  listed : t.Lists Node.screen? listing
  key_eq : ∀ a ∈ listing, ∃ outer i c,
    a.1 = Place.child outer i ∧ t.nodeAt? outer = some c ∧ a.2.key = (a.2.name, c.name)
  screens_eq : t.flatten.screens = kept.map (·.2)
  sublist : kept.Sublist listing
  keys_nodup : (kept.map (·.2.key)).Nodup
  complete : ∀ a ∈ listing, ∃ b ∈ kept, b.2.key = a.2.key
  first : ∀ b ∈ kept, ∀ a ∈ listing, a.2.key = b.2.key → a = b ∨ b.1.path < a.1.path

namespace Tree

/-- A normalized tree is flattened to the first screen of each name and container name. -/
theorem ofJson_firstKept {j : Json} {t : Tree} (h : ofJson j = .ok t) :
    ∃ listing kept, t.FirstKept listing kept := by
  have ht : t.Settled := (ofJson_settled h).1
  have hlists := t.lists Node.screen?
  refine ⟨t.listedBy Node.screen?, firsts (fun a => a.2.key) [] (t.listedBy Node.screen?), ?_⟩
  exact {
    listed := hlists
    key_eq := fun a ha => ht.key_eq ha
    screens_eq := by
      have hkept : firsts Screen.key [] ((t.listedBy Node.screen?).map (·.2)) =
          (firsts (fun a => a.2.key) [] (t.listedBy Node.screen?)).map (·.2) :=
        firsts_map _ (fun _ => rfl) [] _
      rw [← hkept, ← screensOf_walk_eq]
      rfl
    sublist := firsts_sublist ..
    keys_nodup := firsts_keys_nodup ..
    complete := fun a ha => exists_mem_firsts ha
    first := fun b hb a ha hkey => before_of_mem_firsts hlists.sorted hb ha hkey }

end Tree

namespace Plain

/-- Both references to the declared group are listed, and the one at the root is kept. -/
theorem twice_shared_firstKept : Tree.ofJson twiceSharedJson = .ok twiceSharedTree ∧
    (∃ listing kept, twiceSharedTree.FirstKept listing kept) ∧
    screensOf (twiceSharedTree.walk everything) = [rootDetail, detail] ∧
    twiceSharedTree.flatten.screens = [rootDetail] :=
  ⟨ofJson_twiceSharedJson, Tree.ofJson_firstKept ofJson_twiceSharedJson, rfl, rfl⟩

end Plain

end NavTree
