import HolyTls.Base.Str8
import HolyTls.Lib.Slots

/-!
# `Net.DnsCache` — resolved addresses by host (`src/net/dns_cache.c`)

A fixed array of slots, each empty (`expiry_ms` is 0) or holding the address of a host until it expires. The
three operations search it with different notions of a matching, a free and an expired slot.

What the cache is for is a map from hosts, ignoring case, to the address that was put last: `latestPut` reads
it off the history of operations. `DnsInv` ties the slots to it: there is at most one for a host, and it holds
what the history says. The cache forgets, and so it refines the map from below (`dns_cache_refines_map`).
-/

namespace HolyTls

open Slots

/-- `DNS_CACHE_CAP`. -/
def dnsCacheCap : Nat := 256

/-- `sizeof(struct sockaddr_storage)`. -/
def sockaddrStorageSize : Nat := 128

/-- `DnsCacheEntry`: the address is the first `addrLen` bytes of its storage. -/
structure DnsCacheEntry where
  host : Str8 := []
  addr : Str8 := []
  addrLen : Nat := 0
  expiryMs : Nat := 0

structure DnsCache where
  v : List DnsCacheEntry
  ttlMs : Nat

/-- `dns_cache_init`. -/
def dnsCacheInit (ttlMs : Nat) : DnsCache := { v := List.replicate dnsCacheCap {}, ttlMs := ttlMs }

namespace DnsCacheEntry

def occupied (e : DnsCacheEntry) : Bool := e.expiryMs != 0

/-- Occupied and not expired. -/
def live (now : Nat) (e : DnsCacheEntry) : Bool := e.expiryMs != 0 && decide (now < e.expiryMs)

/-- Hosts are compared ignoring case. -/
def key (e : DnsCacheEntry) : Str8 := lower e.host

/-- Give the slot up. -/
def free (e : DnsCacheEntry) : DnsCacheEntry := { e with expiryMs := 0 }

end DnsCacheEntry

/-- `dns_host_eq`. -/
def dnsHostEq (a b : Str8) : Bool := str8MatchCi a b

/-- The slot that holds a host. -/
def dnsHolds (host : Str8) (e : DnsCacheEntry) : Bool := e.expiryMs != 0 && dnsHostEq e.host host

/-- `dns_cache_get`: the storage and the length of the address, and the cache afterwards. -/
def dnsCacheGet (dc : DnsCache) (host : Str8) (now : Nat) : Option (Str8 × Nat) × DnsCache :=
  if dc.ttlMs = 0 then (none, dc)
  else
    match dc.v.findIdx? (dnsHolds host) with
    | none => (none, dc)
    | some i =>
      let e := dc.v.getD i {}
      if now ≥ e.expiryMs then (none, { dc with v := dc.v.set i e.free })
      else (some (e.addr, e.addrLen), dc)

/-- Where a put goes: to the host's slot, a free or expired one, or the one that expires first. -/
def dnsSlot (v : List DnsCacheEntry) (host : Str8) (now : Nat) : Nat :=
  match v.findIdx? (dnsHolds host) with
  | some i => i
  | none   =>
    match v.findIdx? (fun e => e.expiryMs == 0 || decide (now ≥ e.expiryMs)) with
    | some i => i
    | none => leastIdx DnsCacheEntry.expiryMs v

/-- An address that `dns_cache_put` takes. -/
def isAddress (addr : Str8) : Bool := addr.length != 0 && decide (addr.length ≤ sockaddrStorageSize)

/-- What a slot holds after a put: the bytes of the storage behind the address stay. -/
def dnsFill (ttlMs : Nat) (host addr : Str8) (now : Nat) (e : DnsCacheEntry) : DnsCacheEntry :=
  { host := host.take 255, addr := addr ++ e.addr.drop addr.length, addrLen := addr.length
    expiryMs := (now + ttlMs) % 2 ^ 64 }

/-- `dns_cache_put`. -/
def dnsCachePut (dc : DnsCache) (host addr : Str8) (now : Nat) : DnsCache :=
  if dc.ttlMs = 0 || !isAddress addr then dc
  else
    let i := dnsSlot dc.v host now
    { dc with v := dc.v.set i (dnsFill dc.ttlMs host addr now (dc.v.getD i {})) }

/-- `dns_cache_evict`. -/
def dnsCacheEvict (dc : DnsCache) (host : Str8) : DnsCache :=
  match dc.v.findIdx? (dnsHolds host) with
  | none => dc
  | some i => { dc with v := dc.v.set i (dc.v.getD i {}).free }

/-! ## Histories -/

/-- One operation. -/
inductive DnsOp
  | put (host addr : Str8) (now : Nat)
  | get (host : Str8) (now : Nat)
  | evict (host : Str8)

def DnsOp.host : DnsOp → Str8
  | put host _ _ => host
  | get host _ => host
  | evict host => host

def dnsApply (dc : DnsCache) : DnsOp → DnsCache
  | .put host addr now => dnsCachePut dc host addr now
  | .get host now => (dnsCacheGet dc host now).2
  | .evict host => dnsCacheEvict dc host

/-- The cache after a history. -/
def dnsRun (ttlMs : Nat) (ops : List DnsOp) : DnsCache := ops.foldl dnsApply (dnsCacheInit ttlMs)

/-- What one operation does to the map. -/
def mapApply (host : Str8) (last : Option (Nat × Str8)) : DnsOp → Option (Nat × Str8)
  | .put h addr now => if lower h = lower host ∧ isAddress addr = true then some (now, addr) else last
  | .get _ _ => last
  | .evict h => if lower h = lower host then none else last

/-- The last address that was put for a host, with the time, unless the host was evicted since. -/
def latestPut (host : Str8) (ops : List DnsOp) : Option (Nat × Str8) := ops.foldl (mapApply host) none

section

variable {ttl now : Nat} {ops : List DnsOp} {dc : DnsCache} {host addr : Str8} {e : DnsCacheEntry}

theorem latestPut_snoc (op : DnsOp) : latestPut host (ops ++ [op]) = mapApply host (latestPut host ops) op :=
  List.foldl_concat ..

/-- The map does not see the case of a host. -/
theorem latestPut_congr {host' : Str8} (h : lower host = lower host') : latestPut host ops = latestPut host' ops := by
  have hfun : mapApply host = mapApply host' := by
    funext last op
    cases op <;> simp only [mapApply, h]
  rw [latestPut, latestPut, hfun]

theorem dnsHolds_iff : dnsHolds host e = true ↔ e.occupied = true ∧ e.key = lower host := by
  rw [dnsHolds, dnsHostEq, Bool.and_eq_true, str8MatchCi_iff]
  rfl

/-! ## What the slots hold -/

/-- The slots hold what the history says. -/
structure DnsInv (ttl : Nat) (ops : List DnsOp) (dc : DnsCache) : Prop where
  size : dc.v.length = dnsCacheCap
  same : dc.ttlMs = ttl
  off : ttl = 0 → ∀ e ∈ dc.v, e.occupied = false
  keyed : Keyed DnsCacheEntry.occupied DnsCacheEntry.key dc.v
  holds : ∀ e ∈ dc.v, e.occupied = true →
    ∃ t addr, latestPut e.host ops = some (t, addr) ∧ e.addr.take e.addrLen = addr ∧
      e.expiryMs = (t + ttl) % 2 ^ 64

theorem DnsInv.init : DnsInv ttl [] (dnsCacheInit ttl) := by
  have hempty : ∀ e ∈ (dnsCacheInit ttl).v, e.occupied = false := by
    intro e he
    rw [List.eq_of_mem_replicate he]
    rfl
  refine ⟨List.length_replicate, rfl, fun _ => hempty, ?_, ?_⟩
  · intro i j a b ha _ hoa
    rw [hempty a (List.mem_of_getElem? ha)] at hoa
    cases hoa
  · intro e he ho
    rw [hempty e he] at ho
    cases ho

theorem getD_of_getElem? {α : Type} {l : List α} {i : Nat} {a d : α} (h : l[i]? = some a) : l.getD i d = a := by
  rw [List.getD_eq_getElem?_getD, h, Option.getD_some]

/-- An operation that leaves the map of every occupied host alone leaves the slots right. -/
theorem DnsInv.keep (hi : DnsInv ttl ops dc) {op : DnsOp}
    (hsame : ∀ e ∈ dc.v, e.occupied = true → latestPut e.host (ops ++ [op]) = latestPut e.host ops) :
    DnsInv ttl (ops ++ [op]) dc := by
  refine ⟨hi.size, hi.same, hi.off, hi.keyed, ?_⟩
  intro e he ho
  rw [hsame e he ho]
  exact hi.holds e he ho

/-- A slot is given up. -/
theorem DnsInv.free (hi : DnsInv ttl ops dc) {op : DnsOp} {i : Nat} (he : dc.v[i]? = some e)
    (hsame : ∀ j b, j ≠ i → dc.v[j]? = some b → b.occupied = true →
      latestPut b.host (ops ++ [op]) = latestPut b.host ops) :
    DnsInv ttl (ops ++ [op]) { dc with v := dc.v.set i e.free } := by
  have hfree : ¬ e.free.occupied = true := by simp [DnsCacheEntry.free, DnsCacheEntry.occupied]
  refine ⟨by simpa using hi.size, hi.same, ?_, hi.keyed.set_same he (fun h => absurd h hfree), ?_⟩
  · intro httl b hb
    obtain ⟨j, hj⟩ := List.mem_iff_getElem?.mp hb
    rcases getElem?_set_cases hj with ⟨-, rfl⟩ | ⟨-, hj'⟩
    · exact Bool.eq_false_iff.mpr hfree
    · exact hi.off httl b (List.mem_of_getElem? hj')
  intro b hb ho
  obtain ⟨j, hj⟩ := List.mem_iff_getElem?.mp hb
  rcases getElem?_set_cases hj with ⟨-, rfl⟩ | ⟨hne, hj'⟩
  · exact absurd ho hfree
  · rw [hsame j b hne hj' ho]
    exact hi.holds b (List.mem_of_getElem? hj') ho

/-! ## One operation -/

theorem DnsInv.get (hi : DnsInv ttl ops dc) : DnsInv ttl (ops ++ [.get host now]) (dnsCacheGet dc host now).2 := by
  have hsame : ∀ h, latestPut h (ops ++ [.get host now]) = latestPut h ops := fun h => latestPut_snoc _
  unfold dnsCacheGet
  split
  · exact hi.keep (fun e _ _ => hsame e.host)
  · split
    · exact hi.keep (fun e _ _ => hsame e.host)
    · next i hfind =>
        obtain ⟨e, he, -⟩ := findIdx?_some hfind
        dsimp only
        rw [getD_of_getElem? he]
        split
        · exact hi.free he (fun j b _ _ _ => hsame b.host)
        · exact hi.keep (fun e _ _ => hsame e.host)

theorem DnsInv.evict (hi : DnsInv ttl ops dc) : DnsInv ttl (ops ++ [.evict host]) (dnsCacheEvict dc host) := by
  have hother : ∀ h, lower host ≠ lower h → latestPut h (ops ++ [.evict host]) = latestPut h ops := by
    intro h hne
    rw [latestPut_snoc, mapApply, if_neg hne]
  unfold dnsCacheEvict
  split
  · next hfind =>
      apply hi.keep
      intro e he ho
      -- no slot holds the host
      refine hother e.host (fun heq => ?_)
      have hno := List.findIdx?_eq_none_iff.mp hfind e he
      rw [dnsHolds_iff.mpr ⟨ho, heq.symm⟩] at hno
      cases hno
  · next i hfind =>
      obtain ⟨e, he, hp⟩ := findIdx?_some hfind
      obtain ⟨ho, hkey⟩ := dnsHolds_iff.mp hp
      rw [getD_of_getElem? he]
      apply hi.free he
      intro j b hj hb hob
      -- another slot holds another host
      refine hother b.host (fun heq => hj ?_)
      exact hi.keyed j i b e hb he hob ho (heq.symm.trans hkey.symm)

/-- A slot that a put may take: the host's; without one, a slot that is not live; and where all are live, one
    that expires first. -/
def DnsTakes (v : List DnsCacheEntry) (host : Str8) (now : Nat) (e : DnsCacheEntry) : Prop :=
  e.occupied = true ∧ e.key = lower host ∨
    (∀ b ∈ v, b.occupied = true → b.key ≠ lower host) ∧
      (e.live now = false ∨ (∀ b ∈ v, b.live now = true) ∧ ∀ b ∈ v, e.expiryMs ≤ b.expiryMs)

/-- Where a put goes. -/
theorem dnsSlot_spec {v : List DnsCacheEntry} (hv : v ≠ []) (host : Str8) (now : Nat) :
    ∃ e, v[dnsSlot v host now]? = some e ∧ DnsTakes v host now e := by
  unfold dnsSlot
  split
  · next i hfind =>
      obtain ⟨e, he, hp⟩ := findIdx?_some hfind
      exact ⟨e, he, .inl (dnsHolds_iff.mp hp)⟩
  · next hnone =>
      have hno : ∀ b ∈ v, b.occupied = true → b.key ≠ lower host := by
        intro b hb ho hkey
        have := List.findIdx?_eq_none_iff.mp hnone b hb
        rw [dnsHolds_iff.mpr ⟨ho, hkey⟩] at this
        cases this
      split
      · next i hfind =>
          obtain ⟨e, he, hp⟩ := findIdx?_some hfind
          refine ⟨e, he, .inr ⟨hno, .inl ?_⟩⟩
          simp only [Bool.or_eq_true, beq_iff_eq, decide_eq_true_eq] at hp
          simp only [DnsCacheEntry.live, Bool.and_eq_false_iff, bne_eq_false_iff_eq, decide_eq_false_iff_not,
            not_lt]
          exact hp
      · next hfull =>
          obtain ⟨e, he, hleast⟩ := leastIdx_spec DnsCacheEntry.expiryMs hv
          refine ⟨e, he, .inr ⟨hno, .inr ⟨fun b hb => ?_, hleast⟩⟩⟩
          have := List.findIdx?_eq_none_iff.mp hfull b hb
          simp only [Bool.or_eq_false_iff, beq_eq_false_iff_ne, decide_eq_false_iff_not, not_le] at this
          simp only [DnsCacheEntry.live, Bool.and_eq_true, bne_iff_ne, decide_eq_true_eq]
          exact this

theorem DnsInv.ne_nil (hi : DnsInv ttl ops dc) : dc.v ≠ [] := by
  intro hnil
  have hsize := hi.size
  rw [hnil] at hsize
  exact absurd hsize (by decide)

theorem DnsInv.put (hi : DnsInv ttl ops dc) (hhost : host.length ≤ 255) :
    DnsInv ttl (ops ++ [.put host addr now]) (dnsCachePut dc host addr now) := by
  have hother : ∀ h, lower host ≠ lower h → latestPut h (ops ++ [.put host addr now]) = latestPut h ops := by
    intro h hne
    rw [latestPut_snoc, mapApply, if_neg (fun hc => hne hc.1)]
  unfold dnsCachePut
  split
  · next hoff =>
      apply hi.keep
      intro e he ho
      rw [latestPut_snoc, mapApply, if_neg]
      rintro ⟨-, haddr⟩
      -- a cache that is switched off holds nothing
      rw [haddr] at hoff
      have httl : dc.ttlMs = 0 := by simpa using hoff
      rw [hi.off (hi.same.symm.trans httl) e he] at ho
      cases ho
  · next hon =>
      obtain ⟨e, he, hcase⟩ := dnsSlot_spec hi.ne_nil host now
      obtain ⟨httl, haddr⟩ : dc.ttlMs ≠ 0 ∧ isAddress addr = true := by
        simpa only [Bool.or_eq_true, decide_eq_true_eq, not_or, Bool.not_eq_true', Bool.not_eq_false] using hon
      dsimp only
      rw [getD_of_getElem? he, hi.same]
      have hfillkey : (dnsFill ttl host addr now e).key = lower host := by
        rw [DnsCacheEntry.key, dnsFill, List.take_of_length_le hhost]
      -- the host's own slot, or no slot of the host
      have hfresh : ∀ j b, j ≠ dnsSlot dc.v host now → dc.v[j]? = some b → b.occupied = true →
          b.key ≠ lower host := by
        intro j b hj hb hob hkey
        rcases hcase with ⟨ho, hk⟩ | ⟨hno, -⟩
        · exact hj (hi.keyed j _ b e hb he hob ho (hkey.trans hk.symm))
        · exact hno b (List.mem_of_getElem? hb) hob hkey
      refine ⟨by simpa using hi.size, rfl, fun h => absurd (hi.same.trans h) httl, hi.keyed.set ?_, ?_⟩
      · intro j b hj hb hob _
        rw [hfillkey]
        exact hfresh j b hj hb hob
      · intro b hb ho
        obtain ⟨j, hj⟩ := List.mem_iff_getElem?.mp hb
        rcases getElem?_set_cases hj with ⟨-, rfl⟩ | ⟨hne, hj'⟩
        · refine ⟨now, addr, ?_, ?_, rfl⟩
          · rw [latestPut_snoc, mapApply, if_pos]
            exact ⟨hfillkey.symm, haddr⟩
          · exact List.take_left
        · rw [hother b.host (fun heq => hfresh j b hne hj' ho heq.symm)]
          exact hi.holds b (List.mem_of_getElem? hj') ho

/-! ## Whole histories -/

theorem dnsRun_snoc (op : DnsOp) : dnsRun ttl (ops ++ [op]) = dnsApply (dnsRun ttl ops) op :=
  List.foldl_concat ..

theorem dnsRun_inv (hhosts : ∀ op ∈ ops, op.host.length ≤ 255) : DnsInv ttl ops (dnsRun ttl ops) := by
  induction ops using List.reverseRecOn with
  | nil => exact DnsInv.init
  | append_singleton ops op ih =>
    have hi := ih (fun x hx => hhosts x (List.mem_append_left _ hx))
    rw [dnsRun_snoc]
    cases op with
    | put host addr now => exact hi.put (hhosts (.put host addr now) (by simp))
    | get host now => exact hi.get
    | evict host => exact hi.evict

/-- A hit returns what the host's slot holds, before it expires. -/
theorem dnsCacheGet_hit {store : Str8} {len : Nat} (h : (dnsCacheGet dc host now).1 = some (store, len)) :
    ∃ e ∈ dc.v, e.occupied = true ∧ e.key = lower host ∧ now < e.expiryMs ∧ e.addr = store ∧
      e.addrLen = len := by
  unfold dnsCacheGet at h
  split at h
  · cases h
  · split at h
    · cases h
    · next i hfind =>
        obtain ⟨e, he, hp⟩ := findIdx?_some hfind
        dsimp only at h
        rw [getD_of_getElem? he] at h
        split at h
        · cases h
        · next hlive =>
            cases h
            obtain ⟨ho, hkey⟩ := dnsHolds_iff.mp hp
            exact ⟨e, List.mem_of_getElem? he, ho, hkey, not_le.mp hlive, rfl, rfl⟩

/-- A live slot of the host is a hit. -/
theorem DnsInv.found (hi : DnsInv ttl ops dc) (he : e ∈ dc.v) (hlive : e.live now = true)
    (hkey : e.key = lower host) : (dnsCacheGet dc host now).1 = some (e.addr, e.addrLen) := by
  obtain ⟨ho, hnow⟩ : e.occupied = true ∧ now < e.expiryMs := by
    rw [DnsCacheEntry.live, Bool.and_eq_true, decide_eq_true_eq] at hlive
    exact hlive
  have hon : dc.ttlMs ≠ 0 := by
    intro hoff
    rw [hi.off (hi.same.symm.trans hoff) e he] at ho
    cases ho
  unfold dnsCacheGet
  rw [if_neg hon]
  split
  · next hnone =>
      have hno := List.findIdx?_eq_none_iff.mp hnone e he
      rw [dnsHolds_iff.mpr ⟨ho, hkey⟩] at hno
      cases hno
  · next i hfind =>
      -- the slot that the search stops at is this one
      obtain ⟨e', he', hp⟩ := findIdx?_some hfind
      obtain ⟨ho', hkey'⟩ := dnsHolds_iff.mp hp
      obtain ⟨j, hj⟩ := List.mem_iff_getElem?.mp he
      have hij : i = j := hi.keyed i j e' e he' hj ho' ho (hkey'.trans hkey.symm)
      dsimp only
      rw [hij, getD_of_getElem? hj, if_neg (not_le.mpr hnow)]

/-- A put changes one slot, if any. -/
theorem dnsCachePut_one (dc : DnsCache) (host addr : Str8) (now : Nat) {j : Nat}
    (hj : j ≠ dnsSlot dc.v host now) : (dnsCachePut dc host addr now).v[j]? = dc.v[j]? := by
  unfold dnsCachePut
  split
  · rfl
  · exact List.getElem?_set_ne (fun h => hj h.symm)

end

/-- The cache after a history refines a map with expiry. -/
structure DnsRefines (ttl : Nat) (ops : List DnsOp) : Prop where
  -- at most one occupied slot for a host
  unique : ∀ (i j : Nat) (a b : DnsCacheEntry), (dnsRun ttl ops).v[i]? = some a →
    (dnsRun ttl ops).v[j]? = some b → a.occupied = true → b.occupied = true →
    lower a.host = lower b.host → i = j
  -- an occupied slot holds the latest put of its host, and expires `ttl` after it
  holds : ∀ e ∈ (dnsRun ttl ops).v, e.occupied = true →
    ∃ t, latestPut e.host ops = some (t, e.addr.take e.addrLen) ∧ e.expiryMs = (t + ttl) % 2 ^ 64
  -- a hit returns the address of the latest put, made less than `ttl` ago
  hit : ∀ host now store len, (dnsCacheGet (dnsRun ttl ops) host now).1 = some (store, len) →
    ∃ t, latestPut host ops = some (t, store.take len) ∧ now < t + ttl
  -- and a host with a live slot is a hit
  found : ∀ (host : Str8) (now : Nat), ∀ e ∈ (dnsRun ttl ops).v, e.live now = true →
    lower e.host = lower host → (dnsCacheGet (dnsRun ttl ops) host now).1 = some (e.addr, e.addrLen)
  -- a put removes a live entry of another host only when all are live, and then one that expires first
  spares : ∀ (host addr : Str8) (now i : Nat) (e : DnsCacheEntry), (dnsRun ttl ops).v[i]? = some e →
    e.live now = true → lower e.host ≠ lower host →
    (dnsCachePut (dnsRun ttl ops) host addr now).v[i]? = some e ∨
      (∀ b ∈ (dnsRun ttl ops).v, b.live now = true) ∧ ∀ b ∈ (dnsRun ttl ops).v, e.expiryMs ≤ b.expiryMs
  -- a put of an address stores it, in a slot of the host or in one that it may take from another
  stores : ttl ≠ 0 → ∀ (host addr : Str8) (now : Nat), host.length ≤ 255 → isAddress addr = true →
    ∃ (i : Nat) (old new : DnsCacheEntry), (dnsRun ttl ops).v[i]? = some old ∧
      DnsTakes (dnsRun ttl ops).v host now old ∧
      (dnsCachePut (dnsRun ttl ops) host addr now).v = (dnsRun ttl ops).v.set i new ∧
      new.host = host ∧ new.addr.take new.addrLen = addr ∧ new.expiryMs = (now + ttl) % 2 ^ 64
  -- and it changes one slot at most
  one : ∀ (host addr : Str8) (now : Nat), ∃ k : Nat, ∀ j : Nat, j ≠ k →
    (dnsCachePut (dnsRun ttl ops) host addr now).v[j]? = (dnsRun ttl ops).v[j]?

/-- **The DNS cache refines a map with expiry**, after every history of operations. -/
theorem dns_cache_refines_map (ttl : Nat) (ops : List DnsOp) (hhosts : ∀ op ∈ ops, op.host.length ≤ 255) :
    DnsRefines ttl ops := by
  have hi : DnsInv ttl ops (dnsRun ttl ops) := dnsRun_inv hhosts
  constructor
  case unique => exact hi.keyed
  case holds =>
    intro e he ho
    obtain ⟨t, addr, hlast, rfl, hexp⟩ := hi.holds e he ho
    exact ⟨t, hlast, hexp⟩
  case hit =>
    intro host now store len h
    obtain ⟨e, he, ho, hkey, hlive, rfl, rfl⟩ := dnsCacheGet_hit h
    obtain ⟨t, addr, hlast, rfl, hexp⟩ := hi.holds e he ho
    refine ⟨t, ?_, ?_⟩
    · rw [← latestPut_congr hkey]
      exact hlast
    · calc now < e.expiryMs := hlive
        _ = (t + ttl) % 2 ^ 64 := hexp
        _ ≤ t + ttl := Nat.mod_le _ _
  case found => exact fun host now e he hlive hkey => hi.found he hlive hkey
  case spares =>
    intro host addr now i e he hlive hne
    by_cases hslot : i = dnsSlot (dnsRun ttl ops).v host now
    · -- the slot that is written: it is not the host's, and it is live
      obtain ⟨e', he', hcase⟩ := dnsSlot_spec hi.ne_nil host now
      rw [← hslot, he] at he'
      cases he'
      rcases hcase with ⟨-, hkey⟩ | ⟨-, hdead | hfull⟩
      · exact absurd hkey hne
      · rw [hlive] at hdead
        cases hdead
      · exact .inr hfull
    · exact .inl ((dnsCachePut_one _ host addr now hslot).trans he)
  case stores =>
    intro httl host addr now hhost haddr
    obtain ⟨old, hold, htakes⟩ := dnsSlot_spec hi.ne_nil host now
    refine ⟨_, old, dnsFill ttl host addr now old, hold, htakes, ?_, List.take_of_length_le hhost, List.take_left,
      rfl⟩
    unfold dnsCachePut
    rw [if_neg (by simp [hi.same, httl, haddr])]
    dsimp only
    rw [getD_of_getElem? hold, hi.same]
  case one =>
    intro host addr now
    exact ⟨_, fun j hj => dnsCachePut_one _ host addr now hj⟩

/-- A host is looked up in another case, evicted and put again. -/
def dnsSample : List DnsOp :=
  [.put (lit "a.example") [2, 0, 1, 187, 10, 0, 0, 1] 5, .get (lit "A.example") 6, .evict (lit "a.EXAMPLE"),
    .put (lit "a.example") [2, 0, 1, 187, 10, 0, 0, 2] 9]

/-- The new address is found before it expires, and not after. -/
theorem dns_cache_refines_map_sample :
    (∀ op ∈ dnsSample, op.host.length ≤ 255) ∧ DnsRefines 10 dnsSample ∧
      (dnsCacheGet (dnsRun 10 dnsSample) (lit "A.EXAMPLE") 18).1 = some ([2, 0, 1, 187, 10, 0, 0, 2], 8) ∧
      (dnsCacheGet (dnsRun 10 dnsSample) (lit "A.EXAMPLE") 19).1 = none :=
  ⟨by decide, dns_cache_refines_map 10 dnsSample (by decide), by decide +kernel, by decide +kernel⟩

end HolyTls
