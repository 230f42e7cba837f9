import MbedClient.Observe.Client

/-! The order in which a walk through the lists meets the entities, and the search for a token as a
search in that order. -/
namespace MbedClient.Observe
open Report (CFloat)

namespace Entity

/-- The places from the object list down. -/
def path : Entity → List Nat
  | object i => [i]
  | objectInstance i j => [i, j]
  | resource i j k => [i, j, k]
  | resourceInstance i j k n => [i, j, k, n]

theorem path_injective : Function.Injective path := by
  intro a b h
  cases a <;> cases b <;> simp_all [path]

def Before (e e' : Entity) : Prop := e.path < e'.path

instance (e e' : Entity) : Decidable (Before e e') := inferInstanceAs (Decidable (_ < _))

theorem Before.ne {e e' : Entity} (h : e.Before e') : e ≠ e' := by
  rintro rfl
  exact List.lt_irrefl _ h

theorem Before.asymm {e e' : Entity} (h : e.Before e') : ¬e'.Before e := List.lt_asymm h

/-- An entity precedes what lies below it. -/
theorem before_below {e e' : Entity} {j : Nat} {s : List Nat} (h : e'.path = e.path ++ j :: s) :
    e.Before e' := by
  have hlt : e.path ++ [] < e.path ++ j :: s := List.append_left_lt (List.nil_lt_cons _ _)
  rwa [List.append_nil, ← h] at hlt

/-- What lies below one child precedes what lies below a later one. -/
theorem before_siblings {e a b : Entity} {i j : Nat} {s r : List Nat} (hij : i < j)
    (ha : a.path = e.path ++ i :: s) (hb : b.path = e.path ++ j :: r) : a.Before b := by
  rw [Before, ha, hb]
  exact List.append_left_lt (List.cons_lt_cons_iff.mpr (Or.inl hij))

end Entity

namespace ObjectList
variable (t : ObjectList)

theorem children_path {e x : Entity} (h : x ∈ children t e) : ∃ j, x.path = e.path ++ [j] := by
  cases e <;> simp only [children] at h <;> (try split at h) <;> simp at h
  all_goals
    obtain ⟨j, -, rfl⟩ := h
    exact ⟨j, rfl⟩

/-- The `i`th child has the place `i` below its parent. -/
theorem children_sorted (e : Entity) : (children t e).Pairwise fun a b =>
    ∃ i j, i < j ∧ a.path = e.path ++ [i] ∧ b.path = e.path ++ [j] := by
  cases e <;> simp only [children] <;> (try split) <;>
    simp only [List.Pairwise.nil, List.pairwise_map]
  all_goals exact List.pairwise_lt_range.imp fun hij => ⟨_, _, hij, rfl, rfl⟩

theorem mem_descend {n : Nat} {e x : Entity} (h : x ∈ descend t n e) :
    ∃ s, x.path = e.path ++ s := by
  induction n generalizing e with
  | zero => exact ⟨[], by simp_all [descend]⟩
  | succ n ih =>
    rcases List.mem_cons.mp h with rfl | h
    · exact ⟨[], (List.append_nil _).symm⟩
    · obtain ⟨c, hc, hx⟩ := List.mem_flatMap.mp h
      obtain ⟨j, hj⟩ := children_path t hc
      obtain ⟨s, hs⟩ := ih hx
      exact ⟨j :: s, by rw [hs, hj, List.append_assoc, List.singleton_append]⟩

theorem mem_descend_self (n : Nat) (e : Entity) : e ∈ descend t n e := by
  cases n <;> exact List.mem_cons_self

theorem mem_subtree_self (e : Entity) : e ∈ subtree t e := mem_descend_self t 3 e

/-- Everything else in its subtree lies below an entity. -/
theorem mem_subtree_below {e b : Entity} (h : b ∈ subtree t e) (hb : b ≠ e) :
    ∃ j s, b.path = e.path ++ j :: s := by
  obtain ⟨s, hs⟩ := mem_descend t h
  cases s with
  | nil => exact absurd (Entity.path_injective (hs.trans (List.append_nil _))) hb
  | cons j s => exact ⟨j, s, hs⟩

/-- A walk meets no entity twice. -/
theorem descend_sorted (n : Nat) (e : Entity) : (descend t n e).Pairwise Entity.Before := by
  induction n generalizing e with
  | zero => exact List.pairwise_singleton _ _
  | succ n ih =>
    refine List.pairwise_cons.mpr ⟨fun x hx => ?_, List.pairwise_flatMap.mpr ⟨fun c _ => ih c, ?_⟩⟩
    · obtain ⟨c, hc, hx⟩ := List.mem_flatMap.mp hx
      obtain ⟨j, hj⟩ := children_path t hc
      obtain ⟨s, hs⟩ := mem_descend t hx
      exact Entity.before_below (hs.trans (by rw [hj, List.append_assoc, List.singleton_append]))
    · refine (children_sorted t e).imp fun ⟨i, j, hij, ha, hb⟩ x hx y hy => ?_
      obtain ⟨s, hs⟩ := mem_descend t hx
      obtain ⟨r, hr⟩ := mem_descend t hy
      refine Entity.before_siblings (e := e) hij (s := s) (r := r) ?_ ?_
      · rw [hs, ha, List.append_assoc, List.singleton_append]
      · rw [hr, hb, List.append_assoc, List.singleton_append]

theorem tokenOrder_sorted : (tokenOrder t).Pairwise Entity.Before := by
  refine List.pairwise_flatMap.mpr ⟨fun e _ => descend_sorted t 2 e, ?_⟩
  rw [objects, List.pairwise_map]
  refine List.pairwise_lt_range.imp fun hij x hx y hy => ?_
  obtain ⟨s, hs⟩ := mem_descend t hx
  obtain ⟨r, hr⟩ := mem_descend t hy
  rw [Entity.Before, hs, hr]
  exact List.cons_lt_cons_iff.mpr (Or.inl hij)

theorem mem_descend_child {n : Nat} {e c x : Entity} (hc : c ∈ children t e)
    (hx : x ∈ descend t n c) : x ∈ descend t (n + 1) e :=
  List.mem_cons_of_mem _ (List.mem_flatMap.mpr ⟨c, hc, hx⟩)

theorem object_mem {i : Nat} {o : Object} (h : t[i]? = some o) : Entity.object i ∈ objects t := by
  obtain ⟨hi, -⟩ := List.getElem?_eq_some_iff.mp h
  exact List.mem_map.mpr ⟨i, List.mem_range.mpr hi, rfl⟩

theorem objectInstance_mem {i j : Nat} {o : Object} {x : ObjectInstance} (h : t[i]? = some o)
    (hx : o.instances[j]? = some x) : Entity.objectInstance i j ∈ children t (.object i) := by
  obtain ⟨hj, -⟩ := List.getElem?_eq_some_iff.mp hx
  simpa only [children, h] using List.mem_map.mpr ⟨j, List.mem_range.mpr hj, rfl⟩

theorem resource_mem {i j k : Nat} {x : ObjectInstance} {r : Resource}
    (h : objectInstance? t i j = some x) (hr : x.resources[k]? = some r) :
    Entity.resource i j k ∈ children t (.objectInstance i j) := by
  obtain ⟨hk, -⟩ := List.getElem?_eq_some_iff.mp hr
  simpa only [children, h] using List.mem_map.mpr ⟨k, List.mem_range.mpr hk, rfl⟩

/-- Everything in the tree but a resource instance can be found by a token. -/
theorem mem_tokenOrder {e : Entity} (he : e.baseType ≠ .resourceInstance)
    (h : (params? t e).isSome) : e ∈ tokenOrder t := by
  obtain ⟨p, hp⟩ := Option.isSome_iff_exists.mp h
  cases e with
  | object i =>
    obtain ⟨o, ho, -⟩ := Option.map_eq_some_iff.mp hp
    exact List.mem_flatMap.mpr ⟨_, object_mem t ho, mem_descend_self t 2 _⟩
  | objectInstance i j =>
    obtain ⟨x, hx, -⟩ := Option.map_eq_some_iff.mp hp
    obtain ⟨o, ho, hx⟩ := Option.bind_eq_some_iff.mp hx
    exact List.mem_flatMap.mpr ⟨_, object_mem t ho,
      mem_descend_child t (objectInstance_mem t ho hx) (mem_descend_self t 1 _)⟩
  | resource i j k =>
    obtain ⟨r, hr, -⟩ := Option.map_eq_some_iff.mp hp
    obtain ⟨x, hx, hr⟩ := Option.bind_eq_some_iff.mp hr
    obtain ⟨o, ho, hxo⟩ := Option.bind_eq_some_iff.mp hx
    exact List.mem_flatMap.mpr ⟨_, object_mem t ho,
      mem_descend_child t (objectInstance_mem t ho hxo)
        (mem_descend_child t (resource_mem t hx hr) (mem_descend_self t 0 _))⟩
  | resourceInstance i j k n => exact absurd rfl he

theorem not_hasPath_nil (e : Entity) : hasPath t [] e = false := by
  unfold hasPath
  split
  · rfl
  · simpa [cStr] using Params.uriPath_ne _

theorem params?_of_hasPath {uriPath : Bytes} {e : Entity} (h : hasPath t uriPath e = true) :
    (params? t e).isSome := by
  unfold hasPath at h
  split at h <;> simp_all

end ObjectList

namespace Client
variable {F : Type*} [CFloat F] (m : Client F) (t : ObjectList)
open ObjectList

/-- A search by path ends at an entity of that path. -/
theorem findResource_hasPath {uriPath : Bytes} {e : Entity}
    (h : m.findResource t uriPath none = some e) : t.hasPath uriPath e = true := by
  obtain ⟨o, -, ho⟩ := List.exists_of_findSome?_eq_some h
  simp only at ho
  split_ifs at ho with hit
  · exact Option.some.inj ho ▸ hit
  · obtain ⟨x, -, hx⟩ := List.exists_of_findSome?_eq_some ho
    simp only at hx
    split_ifs at hx with hit
    · exact Option.some.inj hx ▸ hit
    · obtain ⟨r, -, hr⟩ := List.exists_of_findSome?_eq_some hx
      simp only at hr
      split_ifs at hr with hit hm
      · exact Option.some.inj hr ▸ hit
      · exact List.find?_some hr

theorem find?_descend (p : Entity → Bool) (n : Nat) (e : Entity) :
    (descend t (n + 1) e).find? p =
      if p e then some e else (children t e).findSome? fun e => (descend t n e).find? p := by
  rw [descend, List.find?_cons, List.find?_flatMap]
  cases p e <;> rfl

/-- A search for a token that is not empty ends at the first entity that stores it. -/
theorem findResource_token (uriPath : Bytes) {token : Bytes} (ht : token ≠ []) :
    m.findResource t uriPath (some token) = (tokenOrder t).find? (m.storesToken token) := by
  have hleaf (e : Entity) : m.findInObjectInstance t uriPath (some token) e =
      (children t e).findSome? fun e => (descend t 0 e).find? (m.storesToken token) := by
    unfold findInObjectInstance
    congr 1
    funext e
    simp only [descend, List.find?_singleton]
  have hinner (e : Entity) : m.findInObject t uriPath (some token) e =
      (children t e).findSome? fun e => (descend t 1 e).find? (m.storesToken token) := by
    unfold findInObject
    simp only [hleaf, find?_descend]
  unfold findResource
  rw [tokenOrder, List.find?_flatMap]
  obtain ⟨b, bs, rfl⟩ := List.exists_cons_of_ne_nil ht
  simp only [hinner, find?_descend]

/-- Nothing is found under the token that is empty, nor under the empty path. -/
theorem findResource_nil {token : Option Bytes} (ht : token.getD [] = []) :
    m.findResource t [] token = none := by
  have hstore (e : Entity) : m.storesToken [] e = false := by
    unfold storesToken
    split
    · rfl
    · rename_i h _
      cases h.token <;> rfl
  have hleaf (e : Entity) : m.findInObjectInstance t [] token e = none := by
    refine List.findSome?_eq_none_iff.mpr fun x _ => ?_
    match token with
    | none =>
      have hnone : findInResource t [] x = none :=
        List.find?_eq_none.mpr fun y _ => by simp [not_hasPath_nil]
      simp [not_hasPath_nil, hnone]
    | some [] => simp [hstore]
  have hinner (e : Entity) : m.findInObject t [] token e = none := by
    refine List.findSome?_eq_none_iff.mpr fun x _ => ?_
    match token with
    | none => simp [not_hasPath_nil, hleaf]
    | some [] => simp [hstore, hleaf]
  refine List.findSome?_eq_none_iff.mpr fun x _ => ?_
  match token with
  | none | some [] => simp [not_hasPath_nil, hinner]

end Client
end MbedClient.Observe
