import MbedClient.Interface.State
import MbedClient.Naming

/-! The host and the port that `process_address` finds in the address of a server. -/
namespace MbedClient.Interface

def colon : UInt8 := 0x3A
def openBracket : UInt8 := 0x5B
def closeBracket : UInt8 := 0x5D

def unbracketed (host : Bytes) : Bytes :=
  if host.head? = some openBracket ∧ host.getLast? = some closeBracket then host.tail.dropLast
  else host

/-- Nothing of what `ip_address` and `port` were is left; and the address is empty, or it is the
host in front of the last colon, and the port is the number behind that. -/
def AddressRight (serverAddress : Bytes) : Prop := ∀ ip port,
  let r := processAddress serverAddress ip port
  r = processAddress serverAddress [] 0 ∧
    (r.1 = [] ∨ ∃ host text, serverAddress = host ++ colon :: text ∧ colon ∉ text ∧
      r.1 = unbracketed host ∧ (numeral text).digits ≠ [] ∧ (r.2.toNat : Int) = denoted text)

/-- The host is not there, or its brackets do not match or enclose nothing. -/
def HostMissing (host : Bytes) : Prop :=
  host = [] ∨ (host.head? = some openBracket ∧ closeBracket ∉ host) ∨
    (host.head? ≠ some openBracket ∧ closeBracket ∈ host) ∨
    ∃ rest, host = openBracket :: closeBracket :: rest ∧ closeBracket ∉ rest

/-- The number of a port, with nothing of the host behind its bracket. -/
def PortPresent (host text : Bytes) : Prop :=
  (host.head? = some openBracket → host.getLast? = some closeBracket) ∧
    (numeral text).digits ≠ [] ∧ 0 ≤ denoted text ∧ denoted text ≤ 65535

section Search
variable {c : UInt8} {a b s : Bytes}

theorem findIdx?_reverse_append (hb : c ∉ b) :
    (a ++ c :: b).reverse.findIdx? (· == c) = some b.length := by
  rw [List.reverse_append, List.reverse_cons, List.append_assoc, List.findIdx?_append]
  have hnone : b.reverse.findIdx? (· == c) = none := by
    rw [List.findIdx?_eq_none_iff]
    intro x hx
    simpa using ne_of_mem_of_not_mem (List.mem_reverse.mp hx) hb
  rw [hnone]
  simp [List.findIdx?_cons]

theorem findLastOf_append (h : cStr s = a ++ c :: b) (hb : c ∉ b) :
    findLastOf c s = some a.length := by
  rw [findLastOf, h, findIdx?_reverse_append hb]
  simp

theorem findLastOf_of_notMem (h : c ∉ cStr s) : findLastOf c s = none := by
  have hnone : (cStr s).reverse.findIdx? (· == c) = none := by
    rw [List.findIdx?_eq_none_iff]
    intro x hx
    simpa using ne_of_mem_of_not_mem (List.mem_reverse.mp hx) h
  rw [findLastOf, hnone]

/-- A text has a last occurrence, or none. -/
theorem last_cases (c : UInt8) (s : Bytes) : c ∉ s ∨ ∃ a b, s = a ++ c :: b ∧ c ∉ b := by
  by_cases h : c ∈ s
  · obtain ⟨a, b, hs, ha⟩ := List.eq_append_cons_of_mem (List.mem_reverse.mpr h)
    refine Or.inr ⟨b.reverse, a.reverse, ?_, by simpa using ha⟩
    simpa using congrArg List.reverse hs
  · exact Or.inl h

/-- There is one last occurrence. -/
theorem last_unique {u v : Bytes} (hb : c ∉ b) (hv : c ∉ v) (h : a ++ c :: b = u ++ c :: v) :
    a = u ∧ b = v := by
  have hlength : b.length = v.length := by
    apply Option.some.inj
    rw [← findIdx?_reverse_append hb, h, findIdx?_reverse_append hv]
  obtain ⟨ha, hcons⟩ := List.append_inj' h (congrArg (· + 1) hlength)
  exact ⟨ha, (List.cons.inj hcons).2⟩

end Search

/-- What `process_address` makes of the host and of the text behind the last colon. -/
def hostAddress (host : Bytes) : Bytes :=
  if host.head? = some openBracket then
    match findLastOf closeBracket host with
    | none => []
    | some bracket => cStr ((host.drop 1).take (bracket - 1))
  else if (findLastOf closeBracket host).isSome then []
  else host

def portOf (text : Bytes) : UInt16 := UInt16.ofInt (atoi text)

section Host
variable {s host text a b : Bytes}

theorem notMem_host (h : cStr s = host ++ colon :: text) : 0 ∉ host := by
  have hs := notMem_cStr s
  rw [h] at hs
  exact fun hz => hs (List.mem_append_left _ hz)

theorem atoi_cStr (s : Bytes) : atoi (cStr s) = atoi s := by
  rw [atoi, atoi, atoll_cStr]

theorem cStr_text (h : cStr s = host ++ colon :: text) {r : Bytes} (hr : r = [] ∨ ∃ t, r = 0 :: t) :
    cStr (text ++ r) = text := by
  have hzero : 0 ∉ text := by
    have hclean := notMem_cStr s
    rw [h] at hclean
    exact fun hz => hclean (List.mem_append_right _ (List.mem_cons_of_mem _ hz))
  rw [cStr, List.takeWhile_append_of_pos fun b hb =>
    bne_iff_ne.mpr (ne_of_mem_of_not_mem hb hzero)]
  obtain rfl | ⟨t, rfl⟩ := hr <;> simp

/-- A port is read up to the NUL. -/
theorem denoted_behind (h : cStr s = host ++ colon :: text) {r : Bytes}
    (hr : r = [] ∨ ∃ t, r = 0 :: t) : (numeral (text ++ r)).digits = (numeral text).digits ∧
      denoted (text ++ r) = denoted text := by
  obtain ⟨hnegative, hdigits⟩ := numeral_cStr (text ++ r)
  rw [cStr_text h hr] at hnegative hdigits
  simp only [denoted, hnegative, hdigits, and_self]

/-- What lies behind a NUL plays no part. -/
theorem processAddress_append (h : cStr s = host ++ colon :: text) (ht : colon ∉ text)
    (ip : Bytes) (port : UInt16) :
    processAddress s ip port = (hostAddress host, portOf text) := by
  have hlast : findLastOf 0x3A s = some host.length := findLastOf_append h ht
  obtain ⟨r, hs, hr⟩ := cStr_append_behind s
  rw [h] at hs
  have htake : cStr (s.take host.length) = host := by
    rw [hs, List.append_assoc, List.take_left]
    exact (cStr_eq_self host).mpr (notMem_host h)
  have hdrop : atoi (s.drop (host.length + 1)) = atoi text := by
    rw [hs]
    simp only [List.append_assoc, List.cons_append, ← List.drop_drop, List.drop_left,
      List.drop_succ_cons, List.drop_zero]
    rw [← atoi_cStr, cStr_text h hr]
  simp only [processAddress, hlast, htake, hdrop]
  by_cases hh : host.head? = some openBracket
  · have hhead : host.head? = some 0x5B := hh
    rw [if_pos hhead, hostAddress, if_pos hh]
    cases hb : findLastOf closeBracket host with
    | none | some k =>
      have hbracket : findLastOf 0x5D host = _ := hb
      rw [hbracket]
      rfl
  · have hhead : ¬host.head? = some 0x5B := hh
    rw [if_neg hhead, hostAddress, if_neg hh]
    cases hb : findLastOf closeBracket host with
    | none | some k =>
      have hbracket : findLastOf 0x5D host = _ := hb
      rw [hbracket]
      rfl

theorem hostAddress_brackets (hz : 0 ∉ openBracket :: (a ++ closeBracket :: b))
    (hb : closeBracket ∉ b) : hostAddress (openBracket :: (a ++ closeBracket :: b)) = a := by
  have hlast : findLastOf closeBracket (openBracket :: (a ++ closeBracket :: b)) =
      some (a.length + 1) := findLastOf_append (a := openBracket :: a) ((cStr_eq_self _).mpr hz) hb
  have ha : 0 ∉ a := fun h => hz (List.mem_cons_of_mem _ (List.mem_append_left _ h))
  rw [hostAddress, if_pos List.head?_cons, hlast]
  simpa using (cStr_eq_self a).mpr ha

theorem hostAddress_open (hz : 0 ∉ host) (hh : host.head? = some openBracket)
    (hb : closeBracket ∉ host) : hostAddress host = [] := by
  have hread : cStr host = host := (cStr_eq_self host).mpr hz
  rw [hostAddress, if_pos hh, findLastOf_of_notMem (by rwa [hread])]

theorem hostAddress_plain (hz : 0 ∉ host) (hh : host.head? ≠ some openBracket) :
    hostAddress host = if closeBracket ∈ host then [] else host := by
  have hread : cStr host = host := (cStr_eq_self host).mpr hz
  rw [hostAddress, if_neg hh]
  obtain hb | ⟨a, b, hab, hb⟩ := last_cases closeBracket host
  · rw [findLastOf_of_notMem (by rwa [hread]), if_neg hb]
    rfl
  · rw [findLastOf_append (hread.trans hab) hb, Option.isSome_some, if_pos rfl,
      if_pos (by simp [hab])]

/-- Only a host that is missing leaves no address. -/
theorem hostAddress_nil_iff (hz : 0 ∉ host) : hostAddress host = [] ↔ HostMissing host := by
  by_cases hh : host.head? = some openBracket
  · obtain ⟨rest, rfl⟩ : ∃ rest, host = openBracket :: rest := List.head?_eq_some_iff.mp hh
    obtain hb | ⟨a, b, rfl, hb⟩ := last_cases closeBracket rest
    · have hnot : closeBracket ∉ openBracket :: rest := by
        simpa [openBracket, closeBracket] using hb
      exact iff_of_true (hostAddress_open hz hh hnot) (Or.inr (Or.inl ⟨hh, hnot⟩))
    · rw [hostAddress_brackets hz hb, HostMissing]
      constructor
      · intro ha
        exact Or.inr (Or.inr (Or.inr ⟨b, by rw [ha, List.nil_append], hb⟩))
      · intro hmissing
        obtain h | ⟨-, h⟩ | ⟨h, -⟩ | ⟨r, h, hr⟩ := hmissing
        · exact absurd h (List.cons_ne_nil _ _)
        · exact absurd (by simp) h
        · exact absurd hh h
        · exact (last_unique (u := []) hb hr (List.cons.inj h).2).1
  · rw [hostAddress_plain hz hh, HostMissing]
    constructor
    · intro hnil
      split_ifs at hnil with hb
      · exact Or.inr (Or.inr (Or.inl ⟨hh, hb⟩))
      · exact Or.inl hnil
    · intro hmissing
      obtain h | ⟨h, -⟩ | ⟨-, h⟩ | ⟨r, h, -⟩ := hmissing
      · rw [h, if_neg List.not_mem_nil]
      · exact absurd h hh
      · rw [if_pos h]
      · rw [h] at hh
        exact absurd rfl hh

/-- What lies behind the brackets is dropped. -/
theorem hostAddress_unbracketed (hz : 0 ∉ host) (hmissing : ¬HostMissing host) :
    hostAddress host = unbracketed host ↔
      (host.head? = some openBracket → host.getLast? = some closeBracket) := by
  rw [← hostAddress_nil_iff hz] at hmissing
  by_cases hh : host.head? = some openBracket
  · obtain ⟨rest, rfl⟩ : ∃ rest, host = openBracket :: rest := List.head?_eq_some_iff.mp hh
    obtain hb | ⟨a, b, rfl, hb⟩ := last_cases closeBracket rest
    · have hnot : closeBracket ∉ openBracket :: rest := by
        simpa [openBracket, closeBracket] using hb
      exact absurd (hostAddress_open hz hh hnot) hmissing
    · rw [hostAddress_brackets hz hb, unbracketed, forall_prop_of_true hh]
      by_cases hlast : (openBracket :: (a ++ closeBracket :: b)).getLast? = some closeBracket
      · rw [if_pos ⟨hh, hlast⟩, eq_true hlast, iff_true]
        obtain rfl | ⟨l, x, rfl⟩ := b.eq_nil_or_concat
        · simp
        · have hx : x = closeBracket := by
            simpa [List.getLast?_cons] using hlast
          simp [hx] at hb
      · rw [if_neg (fun h => hlast h.2), eq_false hlast, iff_false]
        intro heq
        have hlength := congrArg List.length heq
        simp at hlength
        omega
  · have hb : closeBracket ∉ host := by
      intro hb
      rw [hostAddress_plain hz hh, if_pos hb] at hmissing
      exact hmissing rfl
    rw [hostAddress_plain hz hh, if_neg hb, unbracketed, if_neg (fun h => hh h.1)]
    exact iff_of_true rfl (fun h => absurd h hh)

/-- The address is a part of the host; the brackets that are taken off are no NUL. -/
theorem notMem_hostAddress (hz : 0 ∉ host) : 0 ∉ hostAddress host := by
  rw [hostAddress]
  split_ifs
  · cases findLastOf closeBracket host with
    | none => exact List.not_mem_nil
    | some k => exact notMem_cStr _
  · exact List.not_mem_nil
  · exact hz

theorem mem_unbracketed (hz : 0 ∈ host) : 0 ∈ unbracketed host := by
  rw [unbracketed]
  split_ifs with h
  · obtain ⟨rest, rfl⟩ := List.head?_eq_some_iff.mp h.1
    have hrest : 0 ∈ rest := (List.mem_cons.mp hz).resolve_left (by decide)
    obtain rfl | ⟨l, x, rfl⟩ := rest.eq_nil_or_concat
    · exact absurd hrest List.not_mem_nil
    · have hx : x = closeBracket := by
        simpa [List.getLast?_cons] using h.2
      have hl : (0 : UInt8) ∈ l ∨ 0 = x := by simpa using hrest
      simpa using hl.resolve_right (by rw [hx]; decide)
  · exact hz

theorem portOf_eq_iff (text : Bytes) :
    ((portOf text).toNat : Int) = denoted text ↔ 0 ≤ denoted text ∧ denoted text ≤ 65535 := by
  have hlt := (portOf text).toNat_lt
  constructor
  · intro h
    omega
  · intro ⟨hlow, hhigh⟩
    have hatoll : atoll text = denoted text := by
      simp only [denoted, atoll] at hlow hhigh ⊢
      split_ifs at hlow hhigh ⊢ <;> omega
    have hatoi : atoi text = denoted text := by
      rw [atoi, hatoll, Int.bmod_eq_of_le] <;> omega
    rw [portOf, hatoi, UInt16.ofInt, UInt16.toNat_ofNat']
    omega

end Host

/-- An address is taken apart right exactly if it has a colon before its first NUL, and either the
host in front of the last one of these is missing, or there is a port and no other colon behind. -/
theorem addressRight_iff (serverAddress : Bytes) : AddressRight serverAddress ↔
    ∃ host text, cStr serverAddress = host ++ colon :: text ∧ colon ∉ text ∧
      (HostMissing host ∨ (PortPresent host text ∧
        colon ∉ serverAddress.drop (cStr serverAddress).length)) := by
  obtain ⟨r, hs, hr⟩ := cStr_append_behind serverAddress
  have hbehind : serverAddress.drop (cStr serverAddress).length = r := by
    have hdrop : (cStr serverAddress ++ r).drop (cStr serverAddress).length = r := List.drop_left
    rwa [← hs] at hdrop
  rw [hbehind]
  have hjoin : ∀ {host text}, cStr serverAddress = host ++ colon :: text →
      serverAddress = host ++ colon :: (text ++ r) := fun h => by
    rw [hs, h, List.append_assoc, List.cons_append]
  constructor
  · intro h
    obtain hnone | ⟨host, text, hread, ht⟩ := last_cases colon (cStr serverAddress)
    · -- what was there before is left
      have hstale := (h [] 1).1
      have hlast : findLastOf 0x3A serverAddress = none := findLastOf_of_notMem hnone
      simp only [processAddress, hlast] at hstale
      exact absurd hstale (by decide)
    · refine ⟨host, text, hread, ht, ?_⟩
      have hz := notMem_host hread
      obtain ⟨-, hright⟩ := h [] 0
      rw [processAddress_append hread ht] at hright
      by_cases hmissing : HostMissing host
      · exact Or.inl hmissing
      obtain hnil | ⟨host', text', heq, ht', hhost, hdigits, hport⟩ := hright
      · exact absurd ((hostAddress_nil_iff hz).mp hnil) hmissing
      rw [hjoin hread] at heq
      by_cases hc : colon ∈ r
      · -- a host that goes on behind the NUL has it inside
        obtain ⟨u, v, rfl, hv⟩ := (last_cases colon r).resolve_left (not_not_intro hc)
        obtain ⟨rfl, rfl⟩ := last_unique (a := host ++ colon :: (text ++ u)) hv ht'
          (by simpa using heq)
        have hu : (0 : UInt8) ∈ u := by
          obtain hnil | ⟨t, hzero⟩ := hr
          · simp at hnil
          · cases u with
            | nil => exact absurd (List.cons.inj hzero).1 (by decide)
            | cons x u =>
              rw [(List.cons.inj hzero).1]
              exact List.mem_cons_self
        have hzero : (0 : UInt8) ∈ host ++ colon :: (text ++ u) := by simp [hu]
        have hmem := mem_unbracketed hzero
        rw [← hhost] at hmem
        exact absurd hmem (notMem_hostAddress hz)
      · obtain ⟨rfl, rfl⟩ := last_unique (by simp [ht, hc]) ht' heq
        rw [(denoted_behind hread hr).1] at hdigits
        rw [(denoted_behind hread hr).2] at hport
        exact Or.inr ⟨⟨(hostAddress_unbracketed hz hmissing).mp hhost, hdigits,
          (portOf_eq_iff text).mp hport⟩, hc⟩
  · intro ⟨host, text, hread, ht, h⟩ ip port
    have hz := notMem_host hread
    simp only [processAddress_append hread ht, true_and]
    by_cases hmissing : HostMissing host
    · exact Or.inl ((hostAddress_nil_iff hz).mpr hmissing)
    · obtain ⟨⟨hlast, hdigits, hport⟩, hc⟩ := h.resolve_left hmissing
      refine Or.inr ⟨host, text ++ r, hjoin hread, by simp [ht, hc],
        (hostAddress_unbracketed hz hmissing).mpr hlast, ?_, ?_⟩
      · rwa [(denoted_behind hread hr).1]
      · rw [(denoted_behind hread hr).2]
        exact (portOf_eq_iff text).mpr hport

/-- `a:70000` gives the port 4464, and `b` the host and the port of the server before. -/
theorem address_misread :
    ¬AddressRight [0x61, 0x3A, 0x37, 0x30, 0x30, 0x30, 0x30] ∧ ¬AddressRight [0x62] := by
  constructor
  · intro h
    obtain ⟨-, hnil | ⟨host, text, hs, ht, -, -, hport⟩⟩ := h [] 0
    · exact absurd hnil (by decide +kernel)
    · obtain ⟨-, rfl⟩ := last_unique (a := [0x61]) (b := [0x37, 0x30, 0x30, 0x30, 0x30])
        (by decide) ht hs
      exact absurd hport (by decide +kernel)
  · intro h
    exact absurd (h [0x61] 5683).1 (by decide +kernel)

end MbedClient.Interface
