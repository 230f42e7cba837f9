import MbedClient.Tlv.Complete

/-! Buffers that a `Put` accepts: no container is empty, and everything they name exists and may be
written. -/
namespace MbedClient.Tlv
open Search
variable {tlv : Nat → UInt8} {size : Nat}

/-! Buffers without empty containers. -/
section Filled

/-- The multiple resource records of a region are not empty. -/
def RegionFilled (tlv : Nat → UInt8) (o e : Nat) : Prop :=
  ∀ p ∈ Walk.span (frame tlv) o e, recType tlv p = typeMultipleResource → 0 < recLength tlv p

def Addressee.Filled (tlv : Nat → UInt8) (size : Nat) : Addressee → Prop
  | .object _ => ∀ q ∈ Walk.span (frame tlv) 0 size,
    0 < recLength tlv q ∧ RegionFilled tlv (recContent tlv q) (recNext tlv q)
  | .objectInstance _ => RegionFilled tlv 0 size
  | .resource _ => 0 < recLength tlv 0

theorem content_lt {p : Nat} (h : 0 < recLength tlv p) : recContent tlv p < recNext tlv p := by
  rw [recNext]
  omega

/-- A walk over a region stays inside the buffer. -/
theorem Region.visits_inside {o e : Nat} (h : Region tlv size o e) (hlt : o < e)
    (hfilled : RegionFilled tlv o e) {oi : M2MObjectInstance} :
    ∀ v ∈ resourceVisits tlv size oi o, v.record < size := by
  intro v hv
  obtain ⟨p, hp, hv⟩ := (mem_resourceVisits tlv size).mp hv
  obtain hp | ⟨hend, hp⟩ := Walk.mem_visited h.format.1 h.inside (hlt.trans_le h.inside) hp
  · have hpe := (Walk.mem_span hp).2
    cases v with
    | own q =>
      obtain rfl := mem_recordVisits_own tlv size hv
      exact hpe.trans_le h.inside
    | member k m =>
      obtain ⟨ht, hm, -⟩ := mem_recordVisits tlv size hv
      have hf : MembersFormat tlv (recContent tlv p) (recNext tlv p) := by
        obtain ht' | ⟨-, hf⟩ := h.format.2 p hp
        · rw [ht] at ht'
          exact absurd ht' (by decide)
        · exact hf
      have hle : recNext tlv p ≤ size := (h.format.1.2 p hp).trans h.inside
      have hstart := (content_lt (hfilled p hp ht)).trans_le hle
      obtain hm | ⟨hbehind, hm⟩ := Walk.mem_visited hf.1 hle hstart hm
      · exact (Walk.mem_span hm).2.trans_le hle
      · exact (h.mem_behind hp hbehind hm).2.1
  · have hstop := (objectInstance_stops (h.closed hend).1).1
    rw [Walk.visited_last _ _ _ (Or.inl hstop), List.mem_singleton] at hp
    subst hp
    cases v with
    | own q =>
      obtain rfl := mem_recordVisits_own tlv size hv
      exact hend
    | member k m =>
      obtain ⟨ht, -⟩ := mem_recordVisits tlv size hv
      rw [(h.closed hend).1] at ht
      exact absurd ht (by decide)

theorem visits_inside {a : Addressee} (hwf : a.WellFormed tlv size) (hfilled : a.Filled tlv size) :
    ∀ v ∈ a.visits tlv size, v.record < size := by
  obtain ⟨hsize, hwf⟩ := hwf
  intro v hv
  cases a with
  | object obj =>
    obtain ⟨q, hq, hv⟩ := List.mem_flatMap.mp hv
    rw [objects_visited hwf hsize] at hq
    cases v with
    | object p =>
      obtain rfl := mem_objectRecordVisits_object tlv size hv
      exact (Walk.mem_span hq).2
    | inside j v =>
      obtain ⟨-, oi, -, -, hv⟩ := mem_objectRecordVisits tlv size hv
      obtain ⟨hlength, hregion⟩ := hfilled q hq
      exact (region_of_mem_span hwf hq).visits_inside (content_lt hlength) hregion v hv
  | objectInstance oi =>
    obtain ⟨w, hw, rfl⟩ := List.mem_map.mp hv
    exact (region_all hwf).visits_inside hsize hfilled w hw
  | resource r =>
    obtain ⟨ht, hnext, hf⟩ := hwf
    have hstart : recContent tlv 0 < size := by
      rw [← hnext]
      exact content_lt hfilled
    obtain ⟨p, hp, rfl⟩ := List.mem_map.mp hv
    rw [memberRecords, Walk.visited_eq_span hf.1 hstart fun p hp => members_go false hf hp] at hp
    exact (Walk.mem_span hp).2

end Filled

/-! Trees in which everything that is named exists and may be written. -/
section Open

/-- There is a match, and no match is refused. -/
def Admits {α : Type*} (f allowed : α → Bool) (xs : List α) : Prop :=
  xs.any f = true ∧ ∀ x ∈ xs, f x = true → allowed x = true

theorem Admits.verdict {α : Type*} {f allowed : α → Bool} {xs : List α} (h : Admits f allowed xs)
    {update : Bool} {missing : Error} :
    searchVerdict update (xs.any f) (xs.any fun x => f x && !allowed x) missing = .none := by
  have hrefused : (xs.any fun x => f x && !allowed x) = false := by
    refine List.any_eq_false.mpr fun x hx hc => ?_
    obtain ⟨hf, hno⟩ := Bool.and_eq_true_iff.mp hc
    simp [h.2 x hx hf] at hno
  rw [searchVerdict, h.1, hrefused, if_pos rfl, Bool.and_false]
  rfl

/-- What an object instance must have for a record about the path. -/
def Path.OpenIn (oi : M2MObjectInstance) : Path → Prop
  | .objectInstance _ => True
  | .multiple _ _ => True
  | .resource _ id => Admits (namedResource id) (·.putAllowed) oi.resources
  | .member _ id m => ∀ r ∈ oi.resources, namedMultiple id r = true →
    Admits (namedMember m) (·.putAllowed) r.instances

def Path.Open (obj : M2MObject) (n : Path) : Prop :=
  ∀ oi ∈ obj.instances, oi.instanceId = n.owner → n.OpenIn oi

variable {oi : M2MObjectInstance}

/-- The check of the last resource record of a buffer, its members included. -/
theorem lastRecord_verdict {o p : Nat} (hf : ResourcesFormat tlv o size)
    (hp : p ∈ Walk.span (frame tlv) o size) (hnext : recNext tlv p = size)
    (hfilled : RegionFilled tlv o size)
    (hopen : ∀ x ∈ recordPaths tlv oi.instanceId p, x.2.OpenIn oi) :
    lastVerdict (resourceVerdict tlv .put false true oi) (recordVisits tlv size oi p) = .none := by
  obtain ht | ⟨ht, hmembers⟩ := hf.2 p hp
  · have hne : (recType tlv p == typeMultipleResource) = false := by rw [ht]; decide
    have hown : isOwn tlv p = true := by simp [isOwn, ht]
    have hadmits := hopen (p, .resource oi.instanceId (recId tlv p)) (by simp [recordPaths, hne])
    have hvisits : recordVisits tlv size oi p = [.own p] := by simp [recordVisits, hne]
    rw [hvisits]
    change ownVerdict tlv .put false p oi = .none
    rw [ownVerdict, if_pos hown]
    exact Admits.verdict hadmits
  · have hown : ownVerdict tlv .put false p oi = .none := by
      rw [ownVerdict, isOwn_multiple ht, ht]
      rfl
    have hstart : recContent tlv p < size := hnext ▸ content_lt (hfilled p hp ht)
    rw [hnext] at hmembers
    have hrecords : memberRecords tlv size true (recContent tlv p) =
        Walk.span (frame tlv) (recContent tlv p) size :=
      Walk.visited_eq_span hmembers.1 hstart fun m hm => members_go true hmembers hm
    rw [recordVisits, if_pos (by simp [ht]), lastVerdict_cons, List.getLast?_map, Option.map_map]
    cases hlast : (entered (multiHit tlv p)
        (fun _ => memberRecords tlv size true (recContent tlv p)) oi.resources 0).getLast? with
    | none => exact hown
    | some v =>
      obtain ⟨k, m⟩ := v
      obtain ⟨r, hk, hr, hm⟩ := mem_entered.mp (List.mem_of_getLast? hlast)
      rw [hrecords] at hm
      have htype := hmembers.2 m hm
      have hhit : memberHit tlv m = namedMember (recId tlv m) := by
        funext i
        simp [memberHit, namedMember, htype]
      have hpath : (m, Path.member oi.instanceId (recId tlv p) (recId tlv m)) ∈
          recordPaths tlv oi.instanceId p := by
        simp [recordPaths, ht, memberPaths, hnext, hm]
      have hadmits := hopen _ hpath r (List.mem_of_getElem? hk) hr
      have hverdict : memberVerdict tlv .put false true m r = .none := by
        rw [memberVerdict, members_go true hmembers hm, if_neg Bool.false_ne_true, hhit]
        exact hadmits.verdict
      simp [resourceVerdict, hk, hverdict]

/-- The check of a region that ends with the buffer. -/
theorem resources_verdict {o : Nat} (hf : ResourcesFormat tlv o size) (hlt : o < size)
    (hfilled : RegionFilled tlv o size)
    (hopen : ∀ x ∈ resourcePaths tlv oi.instanceId o size, x.2.OpenIn oi) :
    lastVerdict (resourceVerdict tlv .put false true oi) (resourceVisits tlv size oi o) =
      .none := by
  have hgoes : ∀ p ∈ Walk.span (frame tlv) o size, resourceStop tlv p = false := by
    intro p hp
    obtain ht | ⟨ht, -⟩ := hf.2 p hp <;> simp [resourceStop, ht]
  obtain ⟨p, hlast, hnext⟩ := hf.1.getLast? hlt
  have hp := List.mem_of_getLast? hlast
  rw [resourceVisits, Walk.visited_eq_span hf.1 hlt hgoes,
    lastVerdict_flatMap _ _ hlast (recordVisits_ne_nil tlv size oi p)]
  exact lastRecord_verdict hf hp hnext hfilled fun x hx =>
    hopen x (List.mem_flatMap.mpr ⟨p, hp, hx⟩)

/-- The check of a whole buffer. The verdict of a walk is that of its last record, so records that
are behind their container do not count. -/
theorem verdict_none {a : Addressee} (hn : a.nested = true) (hwf : a.WellFormed tlv size)
    (hfilled : a.Filled tlv size) (hopen : ∀ x ∈ a.paths tlv size, x.2.Open a.forest) :
    a.verdict tlv size .put = .none := by
  obtain ⟨hsize, hwf⟩ := hwf
  cases a with
  | object obj =>
    obtain ⟨q, hlast, hnext⟩ := hwf.1.getLast? hsize
    have hq := List.mem_of_getLast? hlast
    obtain ⟨hlength, hregion⟩ := hfilled q hq
    obtain ⟨htype, hf⟩ := hwf.2 q hq
    have hstart := content_lt hlength
    have hend : recNext tlv q = size := hnext
    rw [hend] at hf hregion hstart
    have hvisits : objectRecordVisits tlv size obj q ≠ [] := List.cons_ne_nil _ _
    rw [Addressee.verdict, Addressee.visits, objectVisits, objects_visited hwf hsize,
      lastVerdict_flatMap _ _ hlast hvisits, objectRecordVisits, if_pos (by simp [htype]),
      lastVerdict_cons, List.getLast?_map, Option.map_map]
    cases hentered : (entered (instanceHit tlv q)
        (fun oi => resourceVisits tlv size oi (recContent tlv q)) obj.instances 0).getLast? with
    | none => rfl
    | some v =>
      obtain ⟨k, v⟩ := v
      obtain ⟨j, oi, rfl, hj, hhit, hv⟩ := entered_getLast? hentered
      have hid : oi.instanceId = recId tlv q := eq_of_beq hhit
      have hverdict := @resources_verdict _ _ oi _ hf hstart hregion fun x hx =>
        hopen x (List.mem_flatMap.mpr ⟨q, hq, List.mem_cons_of_mem _ (by rwa [hend, ← hid])⟩) oi
          (List.mem_of_getElem? hj) (owner_of_mem_resourcePaths hx).symm
      rw [lastVerdict, hv] at hverdict
      simpa [objectVerdict, hj, Addressee.forest, Addressee.nested] using hverdict
  | objectInstance oi =>
    have hverdict := resources_verdict hwf hsize hfilled fun x hx =>
      hopen x hx oi List.mem_cons_self (owner_of_mem_resourcePaths hx).symm
    rw [Addressee.verdict, Addressee.visits, lastVerdict, List.getLast?_map, Option.map_map]
    exact hverdict
  | resource r => exact absurd hn Bool.false_ne_true

/-- A `Put` of a buffer that names only what exists and may be written stores the last record about
every variable. -/
theorem put_reads {a : Addressee} (hn : a.nested = true) (hwf : a.WellFormed tlv size)
    (hfilled : a.Filled tlv size) (hopen : ∀ x ∈ a.paths tlv size, x.2.Open a.forest)
    {H : Heap → Prop} (hH : Stable H) {env : Env} (hs : H env.heap) :
    let put := deserialize (some tlv) size .put a env
    put.1 = .none ∧ ∀ n t x, n.locate a.forest = some t →
      ((a.paths tlv size).filter fun y => y.2 = n).getLast? = some x →
        ∃ h, H h ∧ n.read put.2.1.forest = some (stored tlv x.1 h) := by
  have hin := visits_inside hwf hfilled
  have hv := verdict_none hn hwf hfilled hopen
  refine ⟨?_, fun n t x ht hx => read_of_last hwf hin hv hH hs ht hx⟩
  rw [deserialize_accepted tlv size .put a env ⟨hwf.startsOn, hv⟩]
  refine (put_atomic tlv size a _).2.1 ?_
  rw [pass_verdict]
  exact hv

end Open
end MbedClient.Tlv
