import HolyTls.Core.AltSvc
import HolyTls.Lib.Slots

/-!
# `Core.Resume` — TLS tickets by origin (`src/core/client.c`)

The cache for resumption: per origin the last ticket, the QUIC transport parameters that go with it, and the
time of the last use. A new origin takes a free entry or, when there is none, the entry that was not used for
the longest time. Tickets are references that the cache owns: each operation yields, beside the cache, what
it took over, copied and freed (`RefEvent`).

The ticket type and `SSL_SESSION_copy_without_early_data` are parameters. What the cache is for is read off
the history of operations: the latest ticket of an origin, stripped as often as it was asked for
(`latestTicket`), its latest transport parameters (`latestTp`) and its last use (`lastUse`).
-/

namespace HolyTls

open Slots

/-- The entries of `resume_cache`. -/
def resumeCacheMax : Nat := 64

/-- The size of `zrtt_tp`. -/
def zrttTpSize : Nat := 256

/-- `ResumeCacheEntry`; `zrttTp` are the first `zrtt_tp_len` bytes. -/
structure ResumeCacheEntry (σ : Type) where
  origin : Str8
  session : Option σ := none
  lastUsedMs : Nat := 0
  zrttTp : Str8 := []

/-- `str8_cstring(e->origin)`. -/
def ResumeCacheEntry.key {σ : Type} (e : ResumeCacheEntry σ) : Str8 := fmtS e.origin

/-- What happens to references: the cache takes one over, makes one by copying, or frees one. -/
inductive RefEvent (σ : Type)
  | handed (s : σ)
  | copied (s : σ)
  | freed (s : σ)
  deriving DecidableEq

/-- A cache, and what an operation did to references. -/
abbrev ResumeStep (σ : Type) := List (ResumeCacheEntry σ) × List (RefEvent σ)

section

variable {σ : Type}

/-- The entry is the origin's. -/
def resumeIs (origin : Str8) (e : ResumeCacheEntry σ) : Bool := str8Match origin e.key

/-- `resume_cache_get`, at the time `now`. -/
def resumeCacheGet (now : Nat) (cache : List (ResumeCacheEntry σ)) (origin : Str8) :
    Option σ × List (ResumeCacheEntry σ) :=
  match cache.findIdx? (resumeIs origin) with
  | none => (none, cache)
  | some i => ((cache[i]?).bind (·.session), cache.modify i (fun e => { e with lastUsedMs := now }))

/-- `resume_cache_slot`: the cache with an entry for the origin, where it is, and what was freed for it. -/
def resumeCacheSlot (now : Nat) (cache : List (ResumeCacheEntry σ)) (origin : Str8) :
    List (ResumeCacheEntry σ) × Nat × List (RefEvent σ) :=
  match cache.findIdx? (resumeIs origin) with
  | some i => (cache.modify i (fun e => { e with lastUsedMs := now }), i, [])
  | none   =>
    let e := { origin := origin.take 255, lastUsedMs := now }
    if cache.length < resumeCacheMax then (cache ++ [e], cache.length, [])
    else
      let i := leastIdx ResumeCacheEntry.lastUsedMs cache
      (cache.set i e, i, ((cache[i]?).bind (·.session)).toList.map .freed)

/-- `resume_cache_put`. -/
def resumeCachePut (now : Nat) (cache : List (ResumeCacheEntry σ)) (origin : Str8) (session : σ) :
    ResumeStep σ :=
  let (cache', i, freed) := resumeCacheSlot now cache origin
  (cache'.modify i (fun e => { e with session := some session }),
    .handed session :: freed ++ ((cache'[i]?).bind (·.session)).toList.map .freed)

/-- `resume_cache_strip_early`; `copied` tells whether the copy succeeds. -/
def resumeCacheStripEarly (strip : σ → σ) (cache : List (ResumeCacheEntry σ)) (origin : Str8)
    (copied : Bool) : ResumeStep σ :=
  match cache.findIdx? (resumeIs origin) with
  | none => (cache, [])
  | some i =>
    match (cache[i]?).bind (·.session), copied with
    | some s, true =>
      (cache.modify i (fun e => { e with session := some (strip s), zrttTp := [] }),
        [.copied (strip s), .freed s])
    | _, _ => (cache.modify i (fun e => { e with zrttTp := [] }), [])

/-- `resume_cache_put_tp`. -/
def resumeCachePutTp (now : Nat) (cache : List (ResumeCacheEntry σ)) (origin tp : Str8) : ResumeStep σ :=
  if cache.length ≥ resumeCacheMax ∧ (cache.findIdx? (resumeIs origin)).isNone then (cache, [])
  else
    let (cache', i, freed) := resumeCacheSlot now cache origin
    (cache'.modify i (fun e => { e with zrttTp := tp.take zrttTpSize }), freed)

/-- `resume_cache_tp`. -/
def resumeCacheTp (cache : List (ResumeCacheEntry σ)) (origin : Str8) : Option Str8 :=
  (cache.find? (fun e => resumeIs origin e && !e.zrttTp.isEmpty)).map (·.zrttTp)

/-! ## Histories -/

/-- One operation; the times are those of `uv_now`. -/
inductive ResumeOp (σ : Type)
  | get (origin : OriginKey) (now : Nat)
  | put (origin : OriginKey) (session : σ) (now : Nat)
  | putTp (origin : OriginKey) (tp : Str8) (now : Nat)
  | stripEarly (origin : OriginKey) (copied : Bool)

variable (strip : σ → σ)

def resumeApply (cache : List (ResumeCacheEntry σ)) : ResumeOp σ → ResumeStep σ
  | .get o now => ((resumeCacheGet now cache o.text).2, [])
  | .put o s now => resumeCachePut now cache o.text s
  | .putTp o tp now => resumeCachePutTp now cache o.text tp
  | .stripEarly o cp => resumeCacheStripEarly strip cache o.text cp

/-- The cache after a history, and all that happened to references. -/
def resumeRun (ops : List (ResumeOp σ)) : ResumeStep σ :=
  ops.foldl (fun w op =>
    let r := resumeApply strip w.1 op
    (r.1, w.2 ++ r.2)) ([], [])

/-- The latest ticket of an origin, stripped as often as a copy was made since. -/
def latestTicket (o : OriginKey) (ops : List (ResumeOp σ)) : Option σ :=
  ops.foldl (fun last op =>
    match op with
    | .put o' s _ => if o' = o then some s else last
    | .stripEarly o' cp => if o' = o ∧ cp = true then last.map strip else last
    | _ => last) none

/-- The latest transport parameters of an origin, unless they were stripped since. -/
def latestTp (o : OriginKey) (ops : List (ResumeOp σ)) : Option Str8 :=
  ops.foldl (fun last op =>
    match op with
    | .putTp o' tp _ => if o' = o then some (tp.take zrttTpSize) else last
    | .stripEarly o' _ => if o' = o then none else last
    | _ => last) none

/-- When an origin was used last. -/
def lastUse (o : OriginKey) (ops : List (ResumeOp σ)) : Option Nat :=
  ops.foldl (fun last op =>
    match op with
    | .get o' now => if o' = o then some now else last
    | .put o' _ now => if o' = o then some now else last
    | .putTp o' _ now => if o' = o then some now else last
    | .stripEarly _ _ => last) none

variable {strip} {ops : List (ResumeOp σ)} {cache pre post : List (ResumeCacheEntry σ)} {o o' : OriginKey}
  {now : Nat} {tp : Str8} {s : σ} {e x : ResumeCacheEntry σ}

/-- The origin an operation is about. -/
def ResumeOp.origin : ResumeOp σ → OriginKey
  | get o _ => o
  | put o _ _ => o
  | putTp o _ _ => o
  | stripEarly o _ => o

/-- What the history says about an entry of an origin. -/
structure EntryFits (strip : σ → σ) (ops : List (ResumeOp σ)) (o : OriginKey) (e : ResumeCacheEntry σ) : Prop where
  origin : e.origin = o.text
  session : ∀ s, e.session = some s → latestTicket strip o ops = some s
  tp : e.zrttTp ≠ [] → latestTp o ops = some e.zrttTp
  used : lastUse o ops = some e.lastUsedMs

theorem EntryFits.key (h : EntryFits strip ops o e) : e.key = o.text := by
  rw [ResumeCacheEntry.key, h.origin]
  exact o.plain

/-- An operation about another origin changes nothing. -/
theorem EntryFits.frame (h : EntryFits strip ops o e) {op : ResumeOp σ} (hne : op.origin ≠ o) :
    EntryFits strip (ops ++ [op]) o e := by
  refine ⟨h.origin, ?_, ?_, ?_⟩
  · intro s hs
    rw [latestTicket, List.foldl_concat]
    cases op with
    | put o' s' now => exact (if_neg hne).trans (h.session s hs)
    | stripEarly o' cp => exact (if_neg (fun hc => hne hc.1)).trans (h.session s hs)
    | _ => exact h.session s hs
  · intro ht
    rw [latestTp, List.foldl_concat]
    cases op with
    | putTp o' tp now | stripEarly o' cp => exact (if_neg hne).trans (h.tp ht)
    | _ => exact h.tp ht
  · rw [lastUse, List.foldl_concat]
    cases op with
    | stripEarly o' cp => exact h.used
    | _ => exact (if_neg hne).trans h.used

/-! ## Where an entry goes -/

theorem resumeIs_iff {origin : Str8} : resumeIs origin e = true ↔ e.key = origin := by
  rw [resumeIs, str8Match, beq_iff_eq, eq_comm]

/-- The origin's entry, or none. -/
theorem resume_find (cache : List (ResumeCacheEntry σ)) (origin : Str8) :
    (cache.findIdx? (resumeIs origin) = none ∧ ∀ b ∈ cache, b.key ≠ origin) ∨
      ∃ pre e post, cache = pre ++ e :: post ∧ e.key = origin ∧
        cache.findIdx? (resumeIs origin) = some pre.length := by
  cases hfind : cache.findIdx? (resumeIs origin) with
  | none =>
    refine .inl ⟨rfl, fun b hb hkey => ?_⟩
    have := List.findIdx?_eq_none_iff.mp hfind b hb
    rw [resumeIs_iff.mpr hkey] at this
    cases this
  | some i =>
    obtain ⟨e, he, hp⟩ := findIdx?_some hfind
    obtain ⟨pre, post, rfl, rfl⟩ := split_of_getElem? he
    exact .inr ⟨pre, e, post, rfl, resumeIs_iff.mp hp, rfl⟩

/-- What is freed when an entry is given to another origin. -/
def freedOf (old : List (ResumeCacheEntry σ)) : List (RefEvent σ) := (old.filterMap (·.session)).map .freed

/-- `resume_cache_slot`: the entry `x` stands where `old` stood. It is the origin's entry, touched, or a new
    one: at the end, or in the place of the one that was not used for the longest time. -/
inductive SlotFor (now : Nat) (origin : Str8) (cache : List (ResumeCacheEntry σ)) :
    List (ResumeCacheEntry σ) → List (ResumeCacheEntry σ) → ResumeCacheEntry σ →
      List (ResumeCacheEntry σ) → List (RefEvent σ) → Prop
  | touch {pre post : List (ResumeCacheEntry σ)} {e : ResumeCacheEntry σ} (hcache : cache = pre ++ e :: post)
      (hkey : e.key = origin) :
      SlotFor now origin cache pre [e] { e with lastUsedMs := now } post []
  | fresh (hnew : ∀ b ∈ cache, b.key ≠ origin) (hroom : cache.length < resumeCacheMax) :
      SlotFor now origin cache cache [] { origin := origin.take 255, lastUsedMs := now } [] []
  | evict {pre post : List (ResumeCacheEntry σ)} {e : ResumeCacheEntry σ} (hcache : cache = pre ++ e :: post)
      (hnew : ∀ b ∈ cache, b.key ≠ origin) (hfull : resumeCacheMax ≤ cache.length)
      (hleast : ∀ b ∈ cache, e.lastUsedMs ≤ b.lastUsedMs) :
      SlotFor now origin cache pre [e] { origin := origin.take 255, lastUsedMs := now } post (freedOf [e])

theorem resumeCacheSlot_spec (now : Nat) (cache : List (ResumeCacheEntry σ)) (origin : Str8) :
    ∃ pre old x post ev, SlotFor now origin cache pre old x post ev ∧
      resumeCacheSlot now cache origin = (pre ++ x :: post, pre.length, ev) := by
  unfold resumeCacheSlot
  rcases resume_find cache origin with ⟨hnone, hnew⟩ | ⟨pre, e, post, rfl, hkey, hfind⟩
  · rw [hnone]
    dsimp only
    by_cases hroom : cache.length < resumeCacheMax
    · rw [if_pos hroom]
      exact ⟨cache, [], _, [], [], .fresh hnew hroom, rfl⟩
    · rw [if_neg hroom]
      have hne : cache ≠ [] := by
        rintro rfl
        exact hroom (Nat.zero_lt_of_ne_zero (by decide))
      obtain ⟨e, he, hleast⟩ := leastIdx_spec ResumeCacheEntry.lastUsedMs hne
      obtain ⟨pre, post, hcache, hlen⟩ := split_of_getElem? he
      refine ⟨pre, [e], _, post, _, .evict hcache hnew (not_lt.mp hroom) hleast, ?_⟩
      rw [he, ← hlen, hcache, set_split]
      cases hs : e.session <;> simp [freedOf, hs]
  · rw [hfind]
    exact ⟨pre, [e], _, post, [], .touch rfl hkey, by simp only [modify_split]⟩

/-! ## References -/

/-- The references that the cache was given or made. -/
def takenRefs (ev : List (RefEvent σ)) : Multiset σ :=
  ↑(ev.filterMap (fun | .handed s => some s | .copied s => some s | .freed _ => none))

/-- The references that it freed. -/
def freedRefs (ev : List (RefEvent σ)) : Multiset σ :=
  ↑(ev.filterMap (fun | .freed s => some s | _ => none))

/-- The references that it has. -/
def heldRefs (cache : List (ResumeCacheEntry σ)) : Multiset σ := ↑(cache.filterMap (·.session))

@[simp] theorem takenRefs_append (ev ev' : List (RefEvent σ)) :
    takenRefs (ev ++ ev') = takenRefs ev + takenRefs ev' := by
  simp [takenRefs, List.filterMap_append]

@[simp] theorem freedRefs_append (ev ev' : List (RefEvent σ)) :
    freedRefs (ev ++ ev') = freedRefs ev + freedRefs ev' := by
  simp [freedRefs, List.filterMap_append]

@[simp] theorem heldRefs_append (l l' : List (ResumeCacheEntry σ)) :
    heldRefs (l ++ l') = heldRefs l + heldRefs l' := by
  simp [heldRefs, List.filterMap_append]

theorem heldRefs_cons (e : ResumeCacheEntry σ) (l : List (ResumeCacheEntry σ)) :
    heldRefs (e :: l) = heldRefs [e] + heldRefs l := heldRefs_append [e] l

@[simp] theorem takenRefs_freedOf (old : List (ResumeCacheEntry σ)) : takenRefs (freedOf old) = 0 := by
  rw [takenRefs, freedOf, List.filterMap_map]
  simp

@[simp] theorem freedRefs_freedOf (old : List (ResumeCacheEntry σ)) : freedRefs (freedOf old) = heldRefs old := by
  rw [freedRefs, freedOf, List.filterMap_map, heldRefs]
  simp

/-! ## What the cache holds -/

/-- The cache holds what the history says, and every reference is accounted for. -/
structure ResumeInv (strip : σ → σ) (ops : List (ResumeOp σ)) (w : ResumeStep σ) : Prop where
  few : w.1.length ≤ resumeCacheMax
  nodup : (w.1.map ResumeCacheEntry.key).Nodup
  fits : ∀ e ∈ w.1, ∃ o, EntryFits strip ops o e
  refs : takenRefs w.2 = freedRefs w.2 + heldRefs w.1

variable {w : ResumeStep σ} {old : List (ResumeCacheEntry σ)} {ev : List (RefEvent σ)} {op : ResumeOp σ}

/-- The entry of an origin says what the history says about that origin. -/
theorem ResumeInv.fits_key (hi : ResumeInv strip ops w) (he : e ∈ w.1) (hkey : e.key = o.text) :
    EntryFits strip ops o e := by
  obtain ⟨o', h⟩ := hi.fits e he
  have heq : o' = o := OriginKey.ext (h.key.symm.trans hkey)
  exact heq ▸ h

variable (op) in
/-- The entry of one origin is replaced, or put in; the others stay. -/
theorem ResumeInv.replace (hi : ResumeInv strip ops w) (hcache : w.1 = pre ++ old ++ post)
    (hothers : ∀ b ∈ pre ++ post, b.key ≠ op.origin.text) (hx : EntryFits strip (ops ++ [op]) op.origin x)
    (hfew : (pre ++ x :: post).length ≤ resumeCacheMax)
    (hrefs : takenRefs ev + heldRefs old = freedRefs ev + heldRefs [x]) :
    ResumeInv strip (ops ++ [op]) (pre ++ x :: post, w.2 ++ ev) := by
  have hsub : (pre ++ post).Sublist w.1 := by
    rw [hcache, List.append_assoc]
    exact List.Sublist.append_left (List.sublist_append_right old post) pre
  refine ⟨hfew, ?_, ?_, ?_⟩
  · rw [List.map_append, List.map_cons, List.nodup_middle, ← List.map_append, List.nodup_cons]
    refine ⟨?_, hi.nodup.sublist (hsub.map _)⟩
    intro hmem
    obtain ⟨b, hb, hkey⟩ := List.mem_map.mp hmem
    exact hothers b hb (hkey.trans hx.key)
  · intro b hb
    rw [List.mem_append, List.mem_cons] at hb
    by_cases hbx : b = x
    · exact ⟨op.origin, hbx ▸ hx⟩
    · have hb' : b ∈ pre ++ post := by
        rw [List.mem_append]
        exact hb.imp id (fun h => h.resolve_left hbx)
      obtain ⟨o', h⟩ := hi.fits b (hsub.subset hb')
      refine ⟨o', h.frame (fun heq => hothers b hb' ?_)⟩
      rw [h.key, heq]
  · have hw := hi.refs
    rw [hcache] at hw
    simp only [takenRefs_append, freedRefs_append, heldRefs_append] at hw ⊢
    rw [hw, heldRefs_cons]
    calc freedRefs w.2 + (heldRefs pre + heldRefs old + heldRefs post) + takenRefs ev
        = freedRefs w.2 + heldRefs pre + heldRefs post + (takenRefs ev + heldRefs old) := by abel
      _ = freedRefs w.2 + heldRefs pre + heldRefs post + (freedRefs ev + heldRefs [x]) := by rw [hrefs]
      _ = freedRefs w.2 + freedRefs ev + (heldRefs pre + (heldRefs [x] + heldRefs post)) := by abel

variable (op) in
/-- An operation that finds no entry of its origin leaves the cache right. -/
theorem ResumeInv.keep (hi : ResumeInv strip ops w) (hnew : ∀ b ∈ w.1, b.key ≠ op.origin.text) :
    ResumeInv strip (ops ++ [op]) (w.1, w.2 ++ []) := by
  rw [List.append_nil]
  refine ⟨hi.few, hi.nodup, ?_, hi.refs⟩
  intro b hb
  obtain ⟨o', h⟩ := hi.fits b hb
  exact ⟨o', h.frame (fun heq => hnew b hb (h.key.trans (heq ▸ rfl)))⟩

/-- In a cache with unique keys, the entries around one are of other origins. -/
theorem key_ne_of_nodup (hnodup : ((pre ++ e :: post).map ResumeCacheEntry.key).Nodup) :
    ∀ b ∈ pre ++ post, b.key ≠ e.key := by
  rw [List.map_append, List.map_cons, List.nodup_middle, ← List.map_append, List.nodup_cons] at hnodup
  intro b hb hkey
  exact hnodup.1 (List.mem_map.mpr ⟨b, hb, hkey⟩)

section

variable (hslot : SlotFor now o.text w.1 pre old x post ev)

include hslot

theorem SlotFor.around : w.1 = pre ++ old ++ post := by
  cases hslot with
  | touch hcache hkey | evict hcache hnew hfull hleast => rw [hcache, List.append_assoc, List.singleton_append]
  | fresh hnew hroom => simp

theorem SlotFor.others (hi : ResumeInv strip ops w) : ∀ b ∈ pre ++ post, b.key ≠ o.text := by
  cases hslot with
  | touch hcache hkey =>
    intro b hb
    have hnodup := hi.nodup
    rw [hcache] at hnodup
    exact hkey ▸ key_ne_of_nodup hnodup b hb
  | fresh hnew hroom => simpa using hnew
  | evict hcache hnew hfull hleast =>
    intro b hb
    refine hnew b ?_
    rw [hcache, List.mem_append, List.mem_cons]
    exact (List.mem_append.mp hb).imp id .inr

theorem SlotFor.few (hi : ResumeInv strip ops w) : (pre ++ x :: post).length ≤ resumeCacheMax := by
  have hfew := hi.few
  cases hslot with
  | touch hcache hkey | evict hcache hnew hfull hleast => simpa [hcache] using hfew
  | fresh hnew hroom => simpa using hroom

theorem SlotFor.refs : takenRefs ev + heldRefs old = freedRefs ev + heldRefs [x] := by
  cases hslot with
  | touch hcache hkey | fresh hnew hroom => rfl
  | evict hcache hnew hfull hleast => rw [takenRefs_freedOf, freedRefs_freedOf, add_comm]; rfl

/-- What the entry says before it is written. -/
theorem SlotFor.entry (hi : ResumeInv strip ops w) :
    x.origin = o.text ∧ x.lastUsedMs = now ∧ (∀ s, x.session = some s → latestTicket strip o ops = some s) ∧
      (x.zrttTp ≠ [] → latestTp o ops = some x.zrttTp) := by
  cases hslot with
  | @touch pre post e hcache hkey =>
    have h : EntryFits strip ops o e := hi.fits_key (by rw [hcache]; simp) hkey
    exact ⟨h.origin, rfl, h.session, h.tp⟩
  | fresh hnew hroom => exact ⟨List.take_of_length_le o.short, rfl, (fun s h => by cases h), fun h => absurd rfl h⟩
  | evict hcache hnew hfull hleast =>
    exact ⟨List.take_of_length_le o.short, rfl, (fun s h => by cases h), fun h => absurd rfl h⟩

end

/-! ## One operation -/

theorem ResumeInv.put (hi : ResumeInv strip ops w) :
    ResumeInv strip (ops ++ [.put o s now])
      ((resumeCachePut now w.1 o.text s).1, w.2 ++ (resumeCachePut now w.1 o.text s).2) := by
  obtain ⟨pre, old, x, post, ev, hslot, heq⟩ := resumeCacheSlot_spec now w.1 o.text
  obtain ⟨horigin, hused, -, htp⟩ := hslot.entry hi
  have hfreed : ((pre ++ x :: post)[pre.length]?.bind (·.session)).toList.map RefEvent.freed = freedOf [x] := by
    rw [getElem?_split]
    cases hs : x.session <;> simp [freedOf, hs]
  unfold resumeCachePut
  rw [heq]
  dsimp only
  rw [modify_split, hfreed]
  refine hi.replace (.put o s now) hslot.around (hslot.others hi) ?_ (by simpa using hslot.few hi) ?_
  · refine ⟨horigin, ?_, ?_, ?_⟩
    · rintro s' ⟨⟩
      rw [latestTicket, List.foldl_concat]
      exact if_pos rfl
    · intro h
      rw [latestTp, List.foldl_concat]
      exact htp h
    · rw [lastUse, List.foldl_concat]
      exact (if_pos rfl).trans (congrArg some hused.symm)
  · have hrefs := hslot.refs
    have hnew : takenRefs (RefEvent.handed s :: ev ++ freedOf [x]) = {s} + takenRefs ev := by
      rw [List.cons_append, ← List.singleton_append, takenRefs_append, takenRefs_append, takenRefs_freedOf, add_zero]
      rfl
    have hgone : freedRefs (RefEvent.handed s :: ev ++ freedOf [x]) = freedRefs ev + heldRefs [x] := by
      rw [List.cons_append, ← List.singleton_append, freedRefs_append, freedRefs_append, freedRefs_freedOf]
      exact zero_add _
    rw [hnew, hgone, ← hrefs, add_assoc]
    exact add_comm _ _

theorem ResumeInv.putTp (hi : ResumeInv strip ops w) :
    ResumeInv strip (ops ++ [.putTp o tp now])
      ((resumeCachePutTp now w.1 o.text tp).1, w.2 ++ (resumeCachePutTp now w.1 o.text tp).2) := by
  unfold resumeCachePutTp
  split
  · next hfull =>
      refine hi.keep (.putTp o tp now) ?_
      rcases resume_find w.1 o.text with ⟨-, hnew⟩ | ⟨_, _, _, -, -, hfind⟩
      · exact hnew
      · rw [hfind] at hfull
        cases hfull.2
  · obtain ⟨pre, old, x, post, ev, hslot, heq⟩ := resumeCacheSlot_spec now w.1 o.text
    obtain ⟨horigin, hused, hses, -⟩ := hslot.entry hi
    rw [heq]
    dsimp only
    rw [modify_split]
    refine hi.replace (.putTp o tp now) hslot.around (hslot.others hi) ?_ (by simpa using hslot.few hi)
      hslot.refs
    refine ⟨horigin, ?_, ?_, ?_⟩
    · intro s' h
      rw [latestTicket, List.foldl_concat]
      exact hses s' h
    · intro _
      rw [latestTp, List.foldl_concat]
      exact if_pos rfl
    · rw [lastUse, List.foldl_concat]
      exact (if_pos rfl).trans (congrArg some hused.symm)

theorem ResumeInv.get (hi : ResumeInv strip ops w) :
    ResumeInv strip (ops ++ [.get o now]) ((resumeCacheGet now w.1 o.text).2, w.2 ++ []) := by
  unfold resumeCacheGet
  rcases resume_find w.1 o.text with ⟨hnone, hnew⟩ | ⟨pre, e, post, hcache, hkey, hfind⟩
  · rw [hnone]
    exact hi.keep (.get o now) hnew
  · have h : EntryFits strip ops o e := hi.fits_key (by rw [hcache]; simp) hkey
    have hslot : SlotFor now o.text w.1 pre [e] { e with lastUsedMs := now } post [] := .touch hcache hkey
    rw [hfind]
    dsimp only
    rw [hcache, modify_split]
    refine hi.replace (.get o now) hslot.around (hslot.others hi) ?_ (by simpa using hslot.few hi) rfl
    refine ⟨h.origin, ?_, ?_, ?_⟩
    · intro s' hs
      rw [latestTicket, List.foldl_concat]
      exact h.session s' hs
    · intro ht
      rw [latestTp, List.foldl_concat]
      exact h.tp ht
    · rw [lastUse, List.foldl_concat]
      exact if_pos rfl

theorem ResumeInv.stripEarly {cp : Bool} (hi : ResumeInv strip ops w) :
    ResumeInv strip (ops ++ [.stripEarly o cp])
      ((resumeCacheStripEarly strip w.1 o.text cp).1, w.2 ++ (resumeCacheStripEarly strip w.1 o.text cp).2) := by
  unfold resumeCacheStripEarly
  rcases resume_find w.1 o.text with ⟨hnone, hnew⟩ | ⟨pre, e, post, hcache, hkey, hfind⟩
  · rw [hnone]
    exact hi.keep (.stripEarly o cp) hnew
  · have h : EntryFits strip ops o e := hi.fits_key (by rw [hcache]; simp) hkey
    have hslot : SlotFor 0 o.text w.1 pre [e] { e with lastUsedMs := 0 } post [] := .touch hcache hkey
    have hused : lastUse o (ops ++ [.stripEarly o cp]) = some e.lastUsedMs := by
      rw [lastUse, List.foldl_concat]
      exact h.used
    have hticket : latestTicket strip o (ops ++ [.stripEarly o cp]) =
        if cp = true then (latestTicket strip o ops).map strip else latestTicket strip o ops := by
      rw [latestTicket, List.foldl_concat]
      simp only [true_and]
      rfl
    -- without a copy only the transport parameters go
    have hplain : (∀ s, e.session = some s → cp ≠ true) →
        ResumeInv strip (ops ++ [.stripEarly o cp]) (pre ++ { e with zrttTp := [] } :: post, w.2 ++ []) := by
      intro hno
      refine hi.replace (.stripEarly o cp) hslot.around (hslot.others hi) ?_
        (by simpa using hslot.few hi) rfl
      refine ⟨h.origin, ?_, fun ht => absurd rfl ht, hused⟩
      intro s hs
      exact (hticket.trans (if_neg (hno s hs))).trans (h.session s hs)
    rw [hfind]
    dsimp only
    rw [hcache, getElem?_split]
    dsimp only [Option.bind_some]
    cases hs : e.session with
    | none =>
      dsimp only
      rw [modify_split]
      refine hplain ?_
      intro s hs'
      rw [hs] at hs'
      cases hs'
    | some s =>
      cases cp with
      | false =>
        dsimp only
        rw [modify_split]
        exact hplain (fun _ _ hcp => by cases hcp)
      | true =>
        -- the copy takes the place of the ticket
        dsimp only
        rw [modify_split]
        refine hi.replace (.stripEarly o true) hslot.around (hslot.others hi) ?_
          (by simpa using hslot.few hi) ?_
        · refine ⟨h.origin, ?_, fun ht => absurd rfl ht, hused⟩
          rintro s' ⟨⟩
          exact (hticket.trans (if_pos rfl)).trans (congrArg (Option.map strip) (h.session s hs))
        · have hold : heldRefs [e] = ({s} : Multiset σ) := by simp [heldRefs, hs]
          rw [hold]
          exact add_comm ({strip s} : Multiset σ) {s}

/-! ## Whole histories -/

theorem resumeRun_inv (ops : List (ResumeOp σ)) : ResumeInv strip ops (resumeRun strip ops) := by
  induction ops using List.reverseRecOn with
  | nil => exact ⟨Nat.zero_le _, List.nodup_nil, (fun e he => by cases he), rfl⟩
  | append_singleton ops op ih =>
    rw [resumeRun, List.foldl_concat]
    cases op with
    | get o now => exact ih.get
    | put o s now => exact ih.put
    | putTp o tp now => exact ih.putTp
    | stripEarly o cp => exact ih.stripEarly

end

/-- What holds of the ticket cache after a history of operations. -/
structure KeepsTickets {σ : Type} (strip : σ → σ) (ops : List (ResumeOp σ)) : Prop where
  -- keys are unique, and at most 64
  unique : ((resumeRun strip ops).1.map ResumeCacheEntry.key).Nodup
  few : (resumeRun strip ops).1.length ≤ resumeCacheMax
  -- a lookup returns the latest ticket of exactly that origin
  ticket : ∀ (o : OriginKey) (now : Nat) (s : σ),
    (resumeCacheGet now (resumeRun strip ops).1 o.text).1 = some s → latestTicket strip o ops = some s
  -- and the transport parameters that were put for it since the last strip
  params : ∀ (o : OriginKey) (tp : Str8),
    resumeCacheTp (resumeRun strip ops).1 o.text = some tp → latestTp o ops = some tp
  -- every reference was freed as often as it was taken, but for those still held
  refs : takenRefs (resumeRun strip ops).2 = freedRefs (resumeRun strip ops).2 + heldRefs (resumeRun strip ops).1
  -- putting transport parameters evicts nothing
  spares : ∀ (o : OriginKey) (tp : Str8) (now : Nat), ∀ e ∈ (resumeRun strip ops).1, e.key ≠ o.text →
    e ∈ (resumeCachePutTp now (resumeRun strip ops).1 o.text tp).1
  -- a new origin in a full cache takes the entry whose last use is the longest ago, and no other
  evicts : ∀ (o : OriginKey) (s : σ) (now : Nat), (resumeRun strip ops).1.length = resumeCacheMax →
    (∀ e ∈ (resumeRun strip ops).1, e.key ≠ o.text) →
    ∃ pre victim post, (resumeRun strip ops).1 = pre ++ victim :: post ∧
      (∀ b ∈ (resumeRun strip ops).1, victim.lastUsedMs ≤ b.lastUsedMs) ∧
      (resumeCachePut now (resumeRun strip ops).1 o.text s).1 =
        pre ++ { origin := o.text, session := some s, lastUsedMs := now } :: post
  -- where the time of the last use is the one in the history
  used : ∀ e ∈ (resumeRun strip ops).1, ∃ o : OriginKey, e.key = o.text ∧ lastUse o ops = some e.lastUsedMs

/-- **The ticket cache keeps tickets with their origins**, after every history of operations. -/
theorem resume_cache_keeps_tickets {σ : Type} (strip : σ → σ) (ops : List (ResumeOp σ)) :
    KeepsTickets strip ops := by
  have hi : ResumeInv strip ops (resumeRun strip ops) := resumeRun_inv ops
  constructor
  case unique => exact hi.nodup
  case few => exact hi.few
  case ticket =>
    intro o now s h
    unfold resumeCacheGet at h
    rcases resume_find (resumeRun strip ops).1 o.text with ⟨hnone, -⟩ | ⟨pre, e, post, hcache, hkey, hfind⟩
    · rw [hnone] at h
      cases h
    · rw [hfind, hcache] at h
      dsimp only at h
      rw [getElem?_split] at h
      exact (hi.fits_key (by rw [hcache]; simp) hkey).session s h
  case params =>
    intro o tp h
    obtain ⟨e, hfind, rfl⟩ := Option.map_eq_some_iff.mp h
    have hp := List.find?_some hfind
    rw [Bool.and_eq_true, resumeIs_iff] at hp
    refine (hi.fits_key (List.mem_of_find?_eq_some hfind) hp.1).tp ?_
    simpa using hp.2
  case refs => exact hi.refs
  case spares =>
    intro o tp now e he hne
    unfold resumeCachePutTp
    split
    · exact he
    · next hroom =>
        obtain ⟨pre, old, x, post, ev, hslot, heq⟩ :=
          resumeCacheSlot_spec now (resumeRun strip ops).1 o.text
        rw [heq]
        dsimp only
        rw [modify_split]
        -- a free slot, or the origin's own; a full cache without the origin has returned already
        have hold : e ∉ old := by
          intro hmem
          cases hslot with
          | touch hcache hkey =>
            rw [List.mem_singleton.mp hmem] at hne
            exact hne hkey
          | fresh hnew hroom => cases hmem
          | evict hcache hnew hfull hleast =>
            rcases resume_find (resumeRun strip ops).1 o.text with ⟨hnone, -⟩ | ⟨_, e', _, hcache', hkey, -⟩
            · exact hroom ⟨hfull, by rw [hnone]; rfl⟩
            · exact hnew e' (by rw [hcache']; simp) hkey
        rw [hslot.around, List.mem_append, List.mem_append] at he
        rw [List.mem_append, List.mem_cons]
        rcases he with (hpre | ho) | hpost
        · exact .inl hpre
        · exact absurd ho hold
        · exact .inr (.inr hpost)
  case evicts =>
    intro o s now hfull hnew
    obtain ⟨pre, old, x, post, ev, hslot, heq⟩ := resumeCacheSlot_spec now (resumeRun strip ops).1 o.text
    unfold resumeCachePut
    rw [heq]
    dsimp only
    rw [modify_split]
    cases hslot with
    | touch hcache hkey => exact absurd hkey (hnew _ (by rw [hcache]; simp))
    | fresh _ hroom => exact absurd hfull hroom.ne
    | @evict pre post e hcache _ _ hleast =>
      refine ⟨pre, e, post, hcache, hleast, ?_⟩
      rw [List.take_of_length_le o.short]
  case used =>
    intro e he
    obtain ⟨o, h⟩ := hi.fits e he
    exact ⟨o, h.key, h.used⟩

end HolyTls
