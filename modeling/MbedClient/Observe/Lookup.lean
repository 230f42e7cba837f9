import MbedClient.Observe.Order
import MbedClient.Observe.Requests

/-! The search for a path: which entities it looks at, and that it finds the one with the path. -/
namespace MbedClient.Observe
open Report (CFloat)

namespace ObjectList
variable (t : ObjectList)

/-- The instances of a resource count if it may have several. -/
def searched (e : Entity) : List Entity :=
  if supportsMultipleInstances t e then children t e else []

/-- The entities in the order in which a search by path looks at them. -/
def pathOrder : List Entity :=
  (objects t).flatMap fun o => o :: (children t o).flatMap fun x =>
    x :: (children t x).flatMap fun r => r :: searched t r

/-- An object, object instance or resource, or an instance of a resource that may have several. -/
def Lookable (e : Entity) : Prop := (params? t e).isSome = true ∧
  match e with
  | .resourceInstance i j k _ => supportsMultipleInstances t (.resource i j k) = true
  | _ => True

/-- The path of an entity is this string, of which no byte is a NUL. -/
def Named (s : Bytes) (e : Entity) : Prop := ∃ p, params? t e = some p ∧ p.uriPath = s

def PathsDistinct : Prop := ∀ e e' uriPath, Lookable t e → Lookable t e' →
  Named t uriPath e → Named t uriPath e' → e = e'

theorem hasPath_iff {s : Bytes} {e : Entity} : hasPath t s e = true ↔ Named t (cStr s) e := by
  unfold hasPath Named
  cases params? t e with
  | none => simp
  | some p => simp

theorem Named.clean {s : Bytes} {e : Entity} (h : Named t s e) : 0 ∉ s := by
  obtain ⟨p, -, rfl⟩ := h
  exact p.uriPath_clean

theorem resourceInstance_mem {i j k n : Nat} {r : Resource} {p : ResourceParams}
    (h : resource? t i j k = some r) (hp : r.instances[n]? = some p) :
    Entity.resourceInstance i j k n ∈ children t (.resource i j k) := by
  obtain ⟨hn, -⟩ := List.getElem?_eq_some_iff.mp hp
  simpa only [children, h] using List.mem_map.mpr ⟨n, List.mem_range.mpr hn, rfl⟩

theorem mem_pathOrder {e : Entity} (h : Lookable t e) : e ∈ pathOrder t := by
  obtain ⟨hsome, hmulti⟩ := h
  obtain ⟨p, hp⟩ := Option.isSome_iff_exists.mp hsome
  cases e with
  | object i =>
    obtain ⟨o, ho, -⟩ := Option.map_eq_some_iff.mp hp
    exact List.mem_flatMap.mpr ⟨_, object_mem t ho, List.mem_cons_self⟩
  | objectInstance i j =>
    obtain ⟨x, hx, -⟩ := Option.map_eq_some_iff.mp hp
    obtain ⟨o, ho, hx⟩ := Option.bind_eq_some_iff.mp hx
    exact List.mem_flatMap.mpr ⟨_, object_mem t ho, List.mem_cons_of_mem _
      (List.mem_flatMap.mpr ⟨_, objectInstance_mem t ho hx, List.mem_cons_self⟩)⟩
  | resource i j k =>
    obtain ⟨r, hr, -⟩ := Option.map_eq_some_iff.mp hp
    obtain ⟨x, hx, hr⟩ := Option.bind_eq_some_iff.mp hr
    obtain ⟨o, ho, hxo⟩ := Option.bind_eq_some_iff.mp hx
    exact List.mem_flatMap.mpr ⟨_, object_mem t ho, List.mem_cons_of_mem _
      (List.mem_flatMap.mpr ⟨_, objectInstance_mem t ho hxo, List.mem_cons_of_mem _
        (List.mem_flatMap.mpr ⟨_, resource_mem t hx hr, List.mem_cons_self⟩)⟩)⟩
  | resourceInstance i j k n =>
    obtain ⟨q, hq, -⟩ := Option.map_eq_some_iff.mp hp
    obtain ⟨r, hr, hq⟩ := Option.bind_eq_some_iff.mp hq
    obtain ⟨x, hx, hrx⟩ := Option.bind_eq_some_iff.mp hr
    obtain ⟨o, ho, hxo⟩ := Option.bind_eq_some_iff.mp hx
    have hin : Entity.resourceInstance i j k n ∈ searched t (.resource i j k) := by
      rw [searched, if_pos hmulti]
      exact resourceInstance_mem t hr hq
    exact List.mem_flatMap.mpr ⟨_, object_mem t ho, List.mem_cons_of_mem _
      (List.mem_flatMap.mpr ⟨_, objectInstance_mem t ho hxo, List.mem_cons_of_mem _
        (List.mem_flatMap.mpr ⟨_, resource_mem t hx hrx, List.mem_cons_of_mem _ hin⟩)⟩)⟩

/-- What a walk meets as a child exists. -/
theorem isSome_of_mem_children {e x : Entity} (h : x ∈ children t e) :
    (params? t x).isSome = true := by
  cases e with
  | object i =>
    simp only [children] at h
    split at h
    · exact absurd h List.not_mem_nil
    · rename_i o ho
      obtain ⟨j, hj, rfl⟩ := List.mem_map.mp h
      simp [params?, objectInstance?, ho, List.mem_range.mp hj]
  | objectInstance i j =>
    simp only [children] at h
    split at h
    · exact absurd h List.not_mem_nil
    · rename_i o ho
      obtain ⟨k, hk, rfl⟩ := List.mem_map.mp h
      simp [params?, resource?, ho, List.mem_range.mp hk]
  | resource i j k =>
    simp only [children] at h
    split at h
    · exact absurd h List.not_mem_nil
    · rename_i o ho
      obtain ⟨n, hn, rfl⟩ := List.mem_map.mp h
      simp [params?, resourceInstance?, ho, List.mem_range.mp hn]
  | resourceInstance i j k n => exact absurd h List.not_mem_nil

theorem lookable_objectInstance {i : Nat} {x : Entity} (h : x ∈ children t (.object i)) :
    Lookable t x := by
  obtain ⟨j, hj⟩ := children_path t h
  obtain rfl : x = .objectInstance i j := Entity.path_injective hj
  exact ⟨isSome_of_mem_children t h, trivial⟩

theorem lookable_resource {i j : Nat} {x : Entity} (h : x ∈ children t (.objectInstance i j)) :
    Lookable t x := by
  obtain ⟨k, hk⟩ := children_path t h
  obtain rfl : x = .resource i j k := Entity.path_injective hk
  exact ⟨isSome_of_mem_children t h, trivial⟩

/-- Only a resource may have several instances. -/
theorem lookable_of_mem_searched {e x : Entity} (h : x ∈ searched t e) : Lookable t x := by
  unfold searched at h
  split_ifs at h with hmulti
  · cases e with
    | resource i j k =>
      obtain ⟨n, hn⟩ := children_path t h
      obtain rfl : x = .resourceInstance i j k n := Entity.path_injective hn
      exact ⟨isSome_of_mem_children t h, hmulti⟩
    | object | objectInstance | resourceInstance => cases hmulti
  · exact absurd h List.not_mem_nil

theorem lookable_object {e : Entity} (h : e ∈ objects t) : Lookable t e := by
  obtain ⟨i, hi, rfl⟩ := List.mem_map.mp h
  exact ⟨by simp [params?, List.mem_range.mp hi], trivial⟩

/-- A search by path looks at every entity but the instances of a resource that has only one. -/
theorem mem_pathOrder_iff {e : Entity} : e ∈ pathOrder t ↔ Lookable t e := by
  refine ⟨fun h => ?_, mem_pathOrder t⟩
  obtain ⟨o, ho, h⟩ := List.mem_flatMap.mp h
  obtain ⟨i, hi, rfl⟩ := List.mem_map.mp ho
  rcases List.mem_cons.mp h with rfl | h
  · exact lookable_object t ho
  obtain ⟨x, hx, h⟩ := List.mem_flatMap.mp h
  obtain ⟨j, hj⟩ := children_path t hx
  obtain rfl : x = .objectInstance i j := Entity.path_injective hj
  rcases List.mem_cons.mp h with rfl | h
  · exact lookable_objectInstance t hx
  obtain ⟨r, hr, h⟩ := List.mem_flatMap.mp h
  rcases List.mem_cons.mp h with rfl | h
  · exact lookable_resource t hr
  · exact lookable_of_mem_searched t h

/-- Paths are looked for among finitely many entities. -/
theorem pathsDistinct_of_nodup
    (h : ((pathOrder t).map fun e => (params? t e).map (·.uriPath)).Nodup) : PathsDistinct t := by
  intro e e' uriPath he he' ⟨p, hp, hpath⟩ ⟨p', hp', hpath'⟩
  refine List.inj_on_of_nodup_map h ((mem_pathOrder_iff t).mpr he)
    ((mem_pathOrder_iff t).mpr he') ?_
  rw [hp, hp', Option.map_some, Option.map_some, hpath, hpath']

end ObjectList

namespace Client
variable {F : Type*} [CFloat F] (m : Client F) (t : ObjectList)
open ObjectList

/-- A search for a path ends at the first entity with that path. -/
theorem findResource_path (uriPath : Bytes) :
    m.findResource t uriPath none = (pathOrder t).find? (hasPath t uriPath) := by
  have hleaf (e : Entity) : m.findInObjectInstance t uriPath none e =
      ((children t e).flatMap fun r => r :: searched t r).find? (hasPath t uriPath) := by
    rw [List.find?_flatMap]
    unfold findInObjectInstance
    congr 1
    funext r
    rw [List.find?_cons]
    cases hpath : hasPath t uriPath r with
    | true => simp only [hpath, if_true]
    | false =>
      cases hmulti : supportsMultipleInstances t r <;>
        simp [searched, hpath, hmulti, findInResource]
  have hinner (e : Entity) : m.findInObject t uriPath none e =
      ((children t e).flatMap fun x => x :: (children t x).flatMap fun r =>
        r :: searched t r).find? (hasPath t uriPath) := by
    rw [List.find?_flatMap]
    unfold findInObject
    congr 1
    funext x
    rw [List.find?_cons, hleaf]
    cases hasPath t uriPath x <;> rfl
  rw [pathOrder, List.find?_flatMap]
  unfold findResource
  congr 1
  funext o
  rw [List.find?_cons, hinner]
  cases hasPath t uriPath o <;> rfl

/-- The search returns the entity whose path is the string, and NULL if there is none. -/
def FindsExactly (s : Bytes) : Prop :=
  (∀ e, m.findResource t s none = some e ↔ Lookable t e ∧ Named t s e) ∧
    (m.findResource t s none = none ↔ ∀ e, Lookable t e → ¬Named t s e)

/-- What is looked for is the string up to its first NUL. -/
theorem findResource_read (h : PathsDistinct t) (s : Bytes) :
    (∀ e, m.findResource t s none = some e ↔ Lookable t e ∧ Named t (cStr s) e) ∧
      (m.findResource t s none = none ↔ ∀ e, Lookable t e → ¬Named t (cStr s) e) := by
  have hnone : m.findResource t s none = none ↔ ∀ e, Lookable t e → ¬Named t (cStr s) e := by
    rw [findResource_path, List.find?_eq_none]
    simp only [mem_pathOrder_iff, hasPath_iff]
  refine ⟨fun e => ⟨fun he => ?_, fun ⟨he, hpath⟩ => ?_⟩, hnone⟩
  · rw [findResource_path] at he
    exact ⟨(mem_pathOrder_iff t).mp (List.mem_of_find?_eq_some he),
      (hasPath_iff t).mp (List.find?_some he)⟩
  · cases hfind : m.findResource t s none with
    | none => exact absurd hpath (hnone.mp hfind e he)
    | some e' =>
      rw [findResource_path] at hfind
      have he' : Lookable t e' := (mem_pathOrder_iff t).mp (List.mem_of_find?_eq_some hfind)
      rw [h e' e _ he' he ((hasPath_iff t).mp (List.find?_some hfind)) hpath]

/-- Where no two entities share a path, the search is exact for a string without a NUL, and for one
whose part in front of its first NUL is the path of no entity. -/
theorem findResource_exact (h : PathsDistinct t) (s : Bytes) :
    m.FindsExactly t s ↔ 0 ∉ s ∨ ∀ e, Lookable t e → ¬Named t (cStr s) e := by
  obtain ⟨hsome, hnone⟩ := m.findResource_read t h s
  constructor
  · rintro ⟨hexact, -⟩
    refine or_iff_not_imp_left.mpr fun hz e he hpath => ?_
    obtain ⟨-, hnamed⟩ := (hexact e).mp ((hsome e).mpr ⟨he, hpath⟩)
    exact hz (hnamed.clean t)
  · intro hs
    by_cases hz : 0 ∈ s
    · -- no path has a NUL, and none is the part in front of it
      have hnot := hs.resolve_left (not_not_intro hz)
      have hnamed : ∀ e, ¬Named t s e := fun e he => he.clean t hz
      refine ⟨fun e => ?_, iff_of_true (hnone.mpr hnot) fun e _ => hnamed e⟩
      rw [hsome]
      exact iff_of_false (fun he => hnot e he.1 he.2) fun he => hnamed e he.2
    · rw [(cStr_eq_self s).mpr hz] at hsome hnone
      exact ⟨hsome, hnone⟩

theorem object_clean : (0 : UInt8) ∉ [51] := by decide

theorem instance_clean : (0 : UInt8) ∉ [51, 47, 48] := by decide

/-- `3/0/6`, which has an instance `3/0/6/1`, below `3/0` of `3`. -/
def powerSources : ObjectList :=
  [{ uriPath := [51], uriPath_ne := List.cons_ne_nil _ _, uriPath_clean := object_clean
     operation := getAllowed, isObservable := true
     instances := [{
       uriPath := [51, 47, 48], uriPath_ne := List.cons_ne_nil _ _, uriPath_clean := instance_clean
       operation := getAllowed, isObservable := true, instanceId := 0
       resources := [{
         uriPath := [51, 47, 48, 47, 54], uriPath_ne := List.cons_ne_nil _ _
         uriPath_clean := by decide, operation := getAllowed, isObservable := true
         mode := .dynamic, resourceType := .integer, supportsMultipleInstances := true
         instances := [{
           uriPath := [51, 47, 48, 47, 54, 47, 49], uriPath_ne := List.cons_ne_nil _ _
           uriPath_clean := by decide, operation := getAllowed, isObservable := true
           mode := .dynamic, resourceType := .integer }] }] }] }]

theorem powerSources_distinct : PathsDistinct powerSources :=
  pathsDistinct_of_nodup _ (by decide +kernel)

theorem powerSource_found :
    (fresh fun _ => [] : Client Int).FindsExactly powerSources [51, 47, 48, 47, 54, 47, 49] :=
  (findResource_exact (fresh fun _ => [] : Client Int) powerSources powerSources_distinct
    [51, 47, 48, 47, 54, 47, 49]).mpr (Or.inl (by decide))

/-- The bytes of `3`, a NUL and `x` are no path, but object `3` is found. -/
theorem path_cut : ¬(fresh fun _ => [] : Client Int).FindsExactly powerSources [51, 0, 120] := by
  intro h
  obtain ⟨-, p, hp, hpath⟩ := (h.1 (.object 0)).mp (by decide +kernel)
  exact absurd (hpath ▸ p.uriPath_clean) (by decide)

end Client
end MbedClient.Observe
