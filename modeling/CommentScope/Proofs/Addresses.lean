import CommentScope.Grammar
import Mathlib.Data.List.Basic

/-!
# Addresses in a concrete tree

Nodes of a concrete tree may be equal though they stand at different places. A `Site` is a node
together with its address, the positions among siblings on the way to it. `Concrete.outside` lists
the sites below the root in pre-order without going into comments. They are the nodes that are not
inside a comment (`mem_outside_iff`), and their addresses rise in the lexicographic order, so that
each of them is listed once (`pairwise_outside`).
-/

namespace CommentScope

/-- A node of a concrete tree and its address. -/
structure Site where
  address : List Nat
  node : Concrete

namespace Concrete

/-- The node at an address. -/
def at? (c : Concrete) : List Nat → Option Concrete
  | [] => some c
  | k :: address => c.children[k]?.bind fun d ↦ d.at? address

/-- The sites of siblings whose parent stands at an address, if the first of them is its `k`-th
child. -/
def siblingSites (address : List Nat) (k : Nat) : List Concrete → List Site
  | [] => []
  | c :: cs => ⟨address ++ [k], c⟩ :: siblingSites address (k + 1) cs

mutual

/-- The sites from a node at an address on, each before what is below it. Nothing below a comment is
listed. -/
def sites (g : Grammar) (address : List Nat) : Concrete → List Site
  | ⟨l, cs⟩ =>
    ⟨address, ⟨l, cs⟩⟩ :: if g.isComment ⟨l, cs⟩ then [] else sitesFrom g address 0 cs

/-- The sites from siblings on whose parent stands at an address, if the first of them is its `k`-th
child. -/
def sitesFrom (g : Grammar) (address : List Nat) (k : Nat) : List Concrete → List Site
  | [] => []
  | c :: cs => sites g (address ++ [k]) c ++ sitesFrom g address (k + 1) cs

end

/-- Whether no node on the way to an address is a comment, the node at the start included and the
node at the address not. -/
def IsOpen (g : Grammar) (c : Concrete) (address : List Nat) : Prop :=
  ∀ front d, front <+: address → front ≠ address → c.at? front = some d → g.isComment d = false

/-- Whether an address leads to a node below the root of a tree that is not inside a comment. The
root itself does not count as a comment. -/
def IsOutside (g : Grammar) (c : Concrete) (address : List Nat) : Prop :=
  (∃ d, c.at? address = some d) ∧ address ≠ [] ∧
    ∀ front d, front ≠ [] → front <+: address → front ≠ address → c.at? front = some d →
      g.isComment d = false

end Concrete

/-- The children of a node, with their addresses. -/
def Site.children (x : Site) : List Site := Concrete.siblingSites x.address 0 x.node.children

/-- The sites from a site on that are not inside a comment. -/
def Site.sites (g : Grammar) (x : Site) : List Site := x.node.sites g x.address

open Concrete

variable {g : Grammar} {c : Concrete} {address : List Nat} {k : Nat}

theorem map_node_siblingSites (address : List Nat) (k : Nat) (cs : List Concrete) :
    (siblingSites address k cs).map Site.node = cs := by
  induction cs generalizing k with
  | nil => rfl
  | cons c cs ih => rw [siblingSites, List.map_cons, ih]

theorem Site.map_node_children (x : Site) : x.children.map Site.node = x.node.children :=
  map_node_siblingSites _ _ _

theorem sitesFrom_eq_flatMap (g : Grammar) (address : List Nat) (k : Nat) (cs : List Concrete) :
    sitesFrom g address k cs = (siblingSites address k cs).flatMap (Site.sites g) := by
  induction cs generalizing k with
  | nil => rfl
  | cons c cs ih => rw [sitesFrom, ih, siblingSites, List.flatMap_cons, Site.sites]

theorem Site.sites_eq (g : Grammar) (x : Site) :
    x.sites g = x :: if g.isComment x.node then [] else x.children.flatMap (Site.sites g) := by
  obtain ⟨address, l, cs⟩ := x
  rw [Site.sites, Concrete.sites, sitesFrom_eq_flatMap]
  rfl

theorem Site.sites_of_isComment {x : Site} (h : g.isComment x.node = true) : x.sites g = [x] := by
  rw [Site.sites_eq, if_pos h]

theorem Site.sites_of_not_isComment {x : Site} (h : g.isComment x.node = false) :
    x.sites g = x :: x.children.flatMap (Site.sites g) := by
  rw [Site.sites_eq, if_neg (by simp [h])]

/-! ### The order of addresses -/

mutual

/-- Everything from a node on stands at its address or behind it. -/
theorem exists_address_of_mem_sites (g : Grammar) (address : List Nat) :
    ∀ (c : Concrete), ∀ x ∈ sites g address c, ∃ way, x.address = address ++ way
  | ⟨l, cs⟩ => by
    intro x hx
    rw [sites, List.mem_cons] at hx
    rcases hx with rfl | hx
    · exact ⟨[], (List.append_nil _).symm⟩
    · split at hx
      · exact absurd hx List.not_mem_nil
      · obtain ⟨j, way, -, heq⟩ := exists_address_of_mem_sitesFrom g address 0 cs x hx
        exact ⟨j :: way, heq⟩

theorem exists_address_of_mem_sitesFrom (g : Grammar) (address : List Nat) (k : Nat) :
    ∀ (cs : List Concrete), ∀ x ∈ sitesFrom g address k cs,
      ∃ j way, k ≤ j ∧ x.address = address ++ j :: way
  | [] => fun _ hx ↦ absurd hx List.not_mem_nil
  | c :: cs => by
    intro x hx
    rw [sitesFrom, List.mem_append] at hx
    rcases hx with hx | hx
    · obtain ⟨way, heq⟩ := exists_address_of_mem_sites g (address ++ [k]) c x hx
      exact ⟨k, way, Nat.le_refl k, by rw [heq, List.append_assoc]; rfl⟩
    · obtain ⟨j, way, hj, heq⟩ := exists_address_of_mem_sitesFrom g address (k + 1) cs x hx
      exact ⟨j, way, Nat.le_of_succ_le hj, heq⟩

end

mutual

/-- **Addresses rise** in the order in which sites are listed. -/
theorem pairwise_sites (g : Grammar) (address : List Nat) :
    ∀ c : Concrete, (sites g address c).Pairwise fun x y ↦ x.address < y.address
  | ⟨l, cs⟩ => by
    rw [sites, List.pairwise_cons]
    split
    · exact ⟨fun _ hx ↦ absurd hx List.not_mem_nil, .nil⟩
    · refine ⟨fun x hx ↦ ?_, pairwise_sitesFrom g address 0 cs⟩
      obtain ⟨j, way, -, heq⟩ := exists_address_of_mem_sitesFrom g address 0 cs x hx
      have hlt : address ++ [] < address ++ j :: way := List.append_left_lt (List.nil_lt_cons j way)
      rwa [heq, ← List.append_nil address, List.append_assoc]

theorem pairwise_sitesFrom (g : Grammar) (address : List Nat) (k : Nat) :
    ∀ cs : List Concrete, (sitesFrom g address k cs).Pairwise fun x y ↦ x.address < y.address
  | [] => .nil
  | c :: cs => by
    rw [sitesFrom, List.pairwise_append]
    refine ⟨pairwise_sites g (address ++ [k]) c, pairwise_sitesFrom g address (k + 1) cs,
      fun x hx y hy ↦ ?_⟩
    obtain ⟨way, hx⟩ := exists_address_of_mem_sites g (address ++ [k]) c x hx
    obtain ⟨j, way', hj, hy⟩ := exists_address_of_mem_sitesFrom g address (k + 1) cs y hy
    rw [hx, hy, List.append_assoc]
    exact List.append_left_lt (List.cons_lt_cons_iff.2 (.inl hj))

end

/-! ### Which sites are listed -/

theorem isOpen_nil (g : Grammar) (c : Concrete) : c.IsOpen g [] := by
  intro front d hfront hne _
  exact absurd (List.prefix_nil.1 hfront) hne

/-- The way through a child is open if the node is not a comment and the way from the child on is
open. -/
theorem isOpen_cons_iff {d : Concrete} {way : List Nat} (hd : c.children[k]? = some d) :
    c.IsOpen g (k :: way) ↔ g.isComment c = false ∧ d.IsOpen g way := by
  constructor
  · intro h
    refine ⟨h [] c List.nil_prefix (List.cons_ne_nil k way).symm rfl, fun front e hfront hne he ↦ ?_⟩
    refine h (k :: front) e (List.cons_prefix_cons.2 ⟨rfl, hfront⟩) (by simpa using hne) ?_
    rw [at?, hd, Option.bind_some, he]
  · rintro ⟨hc, h⟩ front e hfront hne he
    cases front with
    | nil => exact Option.some.inj he ▸ hc
    | cons j front =>
      obtain ⟨rfl, hrest⟩ := List.cons_prefix_cons.1 hfront
      rw [at?, hd, Option.bind_some] at he
      exact h front e hrest (by simpa using hne) he

/-- The sites from a sibling on are among those from all siblings on. -/
theorem sites_subset_sitesFrom (g : Grammar) (address : List Nat) (k : Nat) {cs : List Concrete}
    {j : Nat} {d : Concrete} (hd : cs[j]? = some d) :
    sites g (address ++ [k + j]) d ⊆ sitesFrom g address k cs := by
  induction cs generalizing j k with
  | nil => simp at hd
  | cons c cs ih =>
    rw [sitesFrom]
    cases j with
    | zero =>
      cases hd
      exact List.subset_append_left _ _
    | succ j =>
      have hsub := ih (k + 1) hd
      rw [Nat.add_right_comm] at hsub
      exact List.Subset.trans hsub (List.subset_append_right _ _)

mutual

/-- What is listed is reached on an open way. -/
theorem exists_way_of_mem_sites (g : Grammar) (address : List Nat) :
    ∀ (c : Concrete), ∀ x ∈ sites g address c,
      ∃ way, x.address = address ++ way ∧ c.at? way = some x.node ∧ c.IsOpen g way
  | ⟨l, cs⟩ => by
    intro x hx
    rw [sites, List.mem_cons] at hx
    rcases hx with rfl | hx
    · exact ⟨[], (List.append_nil _).symm, rfl, isOpen_nil g _⟩
    · split at hx
      · exact absurd hx List.not_mem_nil
      · rename_i hcomment
        obtain ⟨j, d, way, hd, heq, hat, hopen⟩ := exists_way_of_mem_sitesFrom g address 0 cs x hx
        rw [Nat.zero_add] at heq
        have hchild : (Concrete.mk l cs).children[j]? = some d := hd
        refine ⟨j :: way, heq, ?_, (isOpen_cons_iff hchild).2 ⟨by simpa using hcomment, hopen⟩⟩
        rw [at?, hchild, Option.bind_some, hat]

theorem exists_way_of_mem_sitesFrom (g : Grammar) (address : List Nat) (k : Nat) :
    ∀ (cs : List Concrete), ∀ x ∈ sitesFrom g address k cs,
      ∃ j d way, cs[j]? = some d ∧ x.address = address ++ (k + j) :: way ∧
        d.at? way = some x.node ∧ d.IsOpen g way
  | [] => fun _ hx ↦ absurd hx List.not_mem_nil
  | c :: cs => by
    intro x hx
    rw [sitesFrom, List.mem_append] at hx
    rcases hx with hx | hx
    · obtain ⟨way, heq, hat, hopen⟩ := exists_way_of_mem_sites g (address ++ [k]) c x hx
      exact ⟨0, c, way, rfl, by rw [heq, List.append_assoc]; rfl, hat, hopen⟩
    · obtain ⟨j, d, way, hd, heq, hat, hopen⟩ :=
        exists_way_of_mem_sitesFrom g address (k + 1) cs x hx
      exact ⟨j + 1, d, way, hd, by rw [heq, Nat.add_right_comm]; rfl, hat, hopen⟩

end

/-- **The sites from a node on are those that are reached on an open way.** -/
theorem mem_sites_iff {x : Site} : x ∈ c.sites g address ↔
    ∃ way, x.address = address ++ way ∧ c.at? way = some x.node ∧ c.IsOpen g way := by
  constructor
  · exact exists_way_of_mem_sites g address c x
  · rintro ⟨way, heq, hat, hopen⟩
    induction way generalizing c address with
    | nil =>
      obtain ⟨l, cs⟩ := c
      obtain ⟨start, d⟩ := x
      obtain rfl : start = address := by simpa using heq
      cases hat
      rw [sites]
      exact List.mem_cons_self
    | cons k way ih =>
      rw [at?] at hat
      obtain ⟨d, hd, hbelow⟩ := Option.bind_eq_some_iff.1 hat
      obtain ⟨hc, hway⟩ := (isOpen_cons_iff hd).1 hopen
      obtain ⟨l, cs⟩ := c
      have hmem : x ∈ d.sites g (address ++ [k]) :=
        ih (by rw [heq, List.append_assoc]; rfl) hbelow hway
      rw [sites, if_neg (by simp [hc])]
      have hsub := sites_subset_sitesFrom g address 0 hd
      rw [Nat.zero_add] at hsub
      exact List.mem_cons_of_mem _ (hsub hmem)

/-! ### Below the root -/

/-- The way through a child of the root leads outside of comments if the way from the child on is
open. -/
theorem isOutside_cons_iff {d : Concrete} {way : List Nat} (hd : c.children[k]? = some d) :
    c.IsOutside g (k :: way) ↔ (∃ e, d.at? way = some e) ∧ d.IsOpen g way := by
  have hat : ∀ front, c.at? (k :: front) = d.at? front := fun front ↦ by
    rw [at?, hd, Option.bind_some]
  rw [IsOutside, hat]
  refine and_congr_right fun _ ↦ ⟨fun ⟨_, h⟩ front e hfront hne he ↦ ?_, fun h ↦ ?_⟩
  · refine h (k :: front) e (List.cons_ne_nil k front) (List.cons_prefix_cons.2 ⟨rfl, hfront⟩)
      (by simpa using hne) ?_
    rw [hat, he]
  · refine ⟨List.cons_ne_nil k way, fun front e hne hfront hne' he ↦ ?_⟩
    cases front with
    | nil => exact absurd rfl hne
    | cons j front =>
      obtain ⟨rfl, hrest⟩ := List.cons_prefix_cons.1 hfront
      exact h front e hrest (by simpa using hne') (by rw [← hat, he])

/-- The sites below the root that are not inside a comment. -/
def Concrete.outside (g : Grammar) (c : Concrete) : List Site :=
  (Site.children ⟨[], c⟩).flatMap (Site.sites g)

theorem outside_eq_sitesFrom (g : Grammar) (c : Concrete) :
    c.outside g = sitesFrom g [] 0 c.children :=
  (sitesFrom_eq_flatMap g [] 0 c.children).symm

/-- The addresses below the root rise, so none of them occurs twice. -/
theorem pairwise_outside (g : Grammar) (c : Concrete) :
    (c.outside g).Pairwise fun x y ↦ x.address < y.address := by
  rw [outside_eq_sitesFrom]
  exact pairwise_sitesFrom g [] 0 c.children

/-- **The sites below the root are the nodes that are not inside a comment**, each at its address. -/
theorem mem_outside_iff {x : Site} :
    x ∈ c.outside g ↔ c.at? x.address = some x.node ∧ c.IsOutside g x.address := by
  rw [outside_eq_sitesFrom]
  constructor
  · intro hx
    obtain ⟨j, d, way, hd, heq, hat, hopen⟩ := exists_way_of_mem_sitesFrom g [] 0 c.children x hx
    rw [heq, List.nil_append, Nat.zero_add]
    exact ⟨by rw [at?, hd, Option.bind_some, hat], (isOutside_cons_iff hd).2 ⟨⟨_, hat⟩, hopen⟩⟩
  · rintro ⟨hat, hout⟩
    obtain ⟨address, e⟩ := x
    cases address with
    | nil => exact absurd rfl hout.2.1
    | cons j way =>
      obtain ⟨d, hd, hbelow⟩ := Option.bind_eq_some_iff.1 hat
      refine sites_subset_sitesFrom g [] 0 hd (mem_sites_iff.2 ?_)
      rw [Nat.zero_add]
      exact ⟨way, rfl, hbelow, ((isOutside_cons_iff hd).1 hout).2⟩

end CommentScope
