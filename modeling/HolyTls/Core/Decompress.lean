import HolyTls.Base.Str8
import HolyTls.Lib.StoredBlocks

/-!
# `Core.Decompress` — content decoding (`src/core/decompress.c`)

A body is decoded at once (`decode_content`) or as it arrives (`stream_decoder_push`). Each of the two has a
loop per codec, and all of them are a `pump` around the library's decoder: they differ in when they make
another round. The libraries are parameters; zlib comes with what it documents (`Drain.Inflater`), and the
results of the other two are read as follows. Brotli's `SUCCESS`, `NEEDS_MORE_INPUT` and
`NEEDS_MORE_OUTPUT` are `streamEnd`, `bufError` and `ok`; a return of 0 from zstd, which is the end of a
frame, is `streamEnd`, and any other that is no error is `ok`.

The loop of the streaming gzip decoder does not end when it is handed a byte after the end of the compressed
stream (`gzip_pushes_terminate_iff`).
-/

namespace HolyTls

open Drain

/-- The libraries. `zlib` is an inflater made by `inflateInit2` with 15 + 32 window bits, `rawZlib` one with
    -15. Making one never fails here. -/
structure Codecs where
  zlib : Inflater UInt8
  rawZlib : Inflater UInt8
  brotli : Decoder UInt8
  zstd : Decoder UInt8

/-- `DECODE_MAX_OUT`. -/
def decodeMaxOut : Nat := 256 * 2 ^ 20

/-- The buffers the libraries write into. -/
def decodeBuf : Nat := 16384

/-- `(uInt)len`: zlib is told the length in 32 bits. -/
def uIntBytes (data : Str8) : Str8 := data.take (data.length % 2 ^ 32)

/-- The codec of a `Content-Encoding` value: its last token, trimmed. -/
def lastCoding (encoding : Str8) : Str8 :=
  str8Trim (match str8RindexOf encoding 44 with
    | some comma => str8Skip encoding (comma + 1)
    | none => encoding)

/-! ## At once -/

/-- `u8buf_append` with the check of the cap after it. -/
def appendSink (cap : Nat) : Sink UInt8 Str8 where
  emit out run := if (out ++ run).length > cap then none else some (out ++ run)
  room out := cap - out.length
  emit_nil := by
    intro e out e' h
    split at h
    · cases h
    · next hle =>
        cases h
        rw [List.append_nil, if_neg hle]
  room_lt := by
    intro e out e' h hne
    have hpos := List.length_pos_iff.mpr hne
    split at h
    · cases h
    · next hle =>
        cases h
        rw [List.length_append] at hle ⊢
        omega
  room_le := by
    intro e out e' h
    split at h
    · cases h
    · cases h
      rw [List.length_append]
      omega

variable (L : Codecs)

/-- `zlib_inflate`: it stops when the stream ends and when no progress is possible, and succeeds in both
    cases. -/
def zlibInflate (Z : Inflater UInt8) (fuel : Nat) (data : Str8) : Option (Option Str8) :=
  (pump Z.toDecoder (appendSink decodeMaxOut) (fun r => r.ret == .ok) decodeBuf fuel Z.init (uIntBytes data) []).map
    (fun res => if res.1.isSome then some res.2.2 else none)

/-- `brotli_decode`: it succeeds when the stream has ended. -/
def brotliDecode (fuel : Nat) (data : Str8) : Option (Option Str8) :=
  (pump L.brotli (appendSink decodeMaxOut) (fun r => r.ret == .ok) decodeBuf fuel L.brotli.init data []).map
    (fun res => if res.1 = some .streamEnd then some res.2.2 else none)

/-- The loops over zstd go on while there is input, and break at the end of a frame that gave nothing. -/
def zstdAgain (r : Call L.zstd.State UInt8) : Bool := !(r.out.isEmpty && r.ret == .streamEnd) && !r.rest.isEmpty

/-- `zstd_decode`. -/
def zstdDecode (fuel : Nat) (data : Str8) : Option (Option Str8) :=
  if data = [] then some (some [])
  else
    (pump L.zstd (appendSink decodeMaxOut) (zstdAgain L) decodeBuf fuel L.zstd.init data []).map
      (fun res => if res.1.isSome then some res.2.2 else none)

/-- `decode_content`: the decoded body, or the inner `none` where the source returns 0. -/
def decodeContent (fuel : Nat) (encoding data : Str8) : Option (Option Str8) :=
  let s := lastCoding encoding
  if s = [] ∨ str8MatchCi s (lit "identity") then some (some data)
  else if str8MatchCi s (lit "zstd") then zstdDecode L fuel data
  else if str8MatchCi s (lit "br") then brotliDecode L fuel data
  else if str8MatchCi s (lit "gzip") ∨ str8MatchCi s (lit "x-gzip") then zlibInflate L.zlib fuel data
  else if str8MatchCi s (lit "deflate") then
    match zlibInflate L.zlib fuel data with
    | some none => zlibInflate L.rawZlib fuel data
    | res => res
  else some none

/-! ## As it arrives -/

/-- What a decoder of a kind works with: `DecKind` and the library's state. -/
inductive DecState
  | identity
  | gzip (zs : L.zlib.State)
  | brotli (br : L.brotli.State)
  | zstd (zd : L.zstd.State)

/-- `StreamDecoder`. -/
structure StreamDecoder where
  dec : DecState L
  totalOut : Nat := 0
  dead : Bool := false

/-- `stream_decoder_create`. -/
def streamDecoderCreate (encoding : Str8) : StreamDecoder L :=
  let s := lastCoding encoding
  if str8MatchCi s (lit "zstd") then { dec := .zstd L.zstd.init }
  else if str8MatchCi s (lit "br") then { dec := .brotli L.brotli.init }
  else if str8MatchCi s (lit "gzip") ∨ str8MatchCi s (lit "x-gzip") ∨ str8MatchCi s (lit "deflate") then
    { dec := .gzip L.zlib.init }
  else { dec := .identity }

/-- `dec_emit`, on the running total and the chunks that `cb` has got; `none` is a breach of the cap. -/
def decEmit (e : Nat × List Str8) (run : Str8) : Option (Nat × List Str8) :=
  if run = [] then some e
  else if e.1 + run.length > decodeMaxOut then none
  else some (e.1 + run.length, e.2 ++ [run])

def decSink : Sink UInt8 (Nat × List Str8) where
  emit := decEmit
  room e := decodeMaxOut - e.1
  emit_nil := fun _ => if_pos rfl
  room_lt := by
    intro e out e' h hne
    have hpos := List.length_pos_iff.mpr hne
    rw [decEmit, if_neg hne] at h
    split at h
    · cases h
    · cases h
      dsimp only
      omega
  room_le := by
    intro e out e' h
    unfold decEmit at h
    split at h
    · cases h
      exact Nat.le_refl _
    · split at h
      · cases h
      · cases h
        dsimp only
        omega

/-- A decoder after a push: dead when it failed. The running total of a dead decoder is not read again. -/
def afterPush {σ : Type} (wrap : σ → DecState L) (res : Option Ret × σ × Nat × List Str8) :
    Bool × StreamDecoder L × List Str8 :=
  (res.1.isSome, { dec := wrap res.2.1, totalOut := res.2.2.1, dead := res.1.isNone }, res.2.2.2)

/-- `stream_decoder_push`: whether it succeeds, the decoder after it, and the chunks that `cb` gets. -/
def streamDecoderPush (fuel : Nat) (d : StreamDecoder L) (inp : Str8) :
    Option (Bool × StreamDecoder L × List Str8) :=
  if d.dead then some (false, d, [])
  else
    match d.dec with
    | .identity =>
      match decEmit (d.totalOut, []) inp with
      | none => some (false, { d with dead := true }, [])
      | some e => some (true, { d with totalOut := e.1 }, e.2)
    | .gzip zs =>
      (drain L.zlib decSink decodeBuf fuel zs (uIntBytes inp) (d.totalOut, [])).map (afterPush L .gzip)
    | .brotli br =>
      (pump L.brotli decSink (fun r => r.ret == .ok) decodeBuf fuel br inp (d.totalOut, [])).map
        (afterPush L .brotli)
    | .zstd zd =>
      if inp = [] then some (true, d, [])
      else (pump L.zstd decSink (zstdAgain L) decodeBuf fuel zd inp (d.totalOut, [])).map (afterPush L .zstd)

/-! ## Whether pushes end -/

/-- Each of the pushes ends. -/
def EachTerminates : StreamDecoder L → List Str8 → Prop
  | _, [] => True
  | d, inp :: pushes =>
    ∃ fuel ok d' chunks, streamDecoderPush L fuel d inp = some (ok, d', chunks) ∧ EachTerminates d' pushes

/-- A push hands the gzip decoder a byte after the end of the compressed stream, which an earlier push or this
    one has reached, before an error or the cap stops it. -/
def TrailingBytes (d : StreamDecoder L) (inp : Str8) : Prop :=
  ∃ zs, d.dec = .gzip zs ∧ d.dead = false ∧ Stuck L.zlib decSink decodeBuf zs (uIntBytes inp) (d.totalOut, [])

/-- None of the pushes does. -/
def NoTrailingBytes : StreamDecoder L → List Str8 → Prop
  | _, [] => True
  | d, inp :: pushes =>
    ¬ TrailingBytes L d inp ∧
      ∀ fuel ok d' chunks, streamDecoderPush L fuel d inp = some (ok, d', chunks) → NoTrailingBytes d' pushes

variable {L} {d d' : StreamDecoder L} {inp : Str8} {fuel : Nat} {ok : Bool} {chunks : List Str8}

theorem streamDecoderPush_gzip {zs : L.zlib.State} (hd : d.dec = .gzip zs)
    (h : streamDecoderPush L fuel d inp = some (ok, d', chunks)) : ∃ zs', d'.dec = .gzip zs' := by
  unfold streamDecoderPush at h
  split at h
  · cases h
    exact ⟨zs, hd⟩
  · rw [hd] at h
    obtain ⟨res, -, hres⟩ := Option.map_eq_some_iff.mp h
    cases hres
    exact ⟨_, rfl⟩

/-- One push ends unless it has trailing bytes. -/
theorem gzip_push_terminates_iff {zs : L.zlib.State} (hd : d.dec = .gzip zs) :
    (∃ fuel ok d' chunks, streamDecoderPush L fuel d inp = some (ok, d', chunks)) ↔ ¬ TrailingBytes L d inp := by
  cases hdead : d.dead with
  | true =>
    refine iff_of_true ⟨0, false, d, [], by simp [streamDecoderPush, hdead]⟩ ?_
    rintro ⟨_, _, hlive, _⟩
    rw [hdead] at hlive
    cases hlive
  | false =>
    have hpush : ∀ fuel, streamDecoderPush L fuel d inp =
        (drain L.zlib decSink decodeBuf fuel zs (uIntBytes inp) (d.totalOut, [])).map (afterPush L .gzip) := by
      intro fuel
      simp only [streamDecoderPush, hdead, hd, Bool.false_eq_true, if_false]
    have htrail : TrailingBytes L d inp ↔ Stuck L.zlib decSink decodeBuf zs (uIntBytes inp) (d.totalOut, []) := by
      constructor
      · rintro ⟨zs', hd', -, hstuck⟩
        rw [hd] at hd'
        cases hd'
        exact hstuck
      · intro hstuck
        exact ⟨zs, hd, hdead, hstuck⟩
    rw [htrail, ← drain_terminates_iff (by decide)]
    constructor
    · rintro ⟨fuel, ok, d', chunks, h⟩
      rw [hpush] at h
      obtain ⟨res, hres, -⟩ := Option.map_eq_some_iff.mp h
      exact ⟨fuel, res, hres⟩
    · rintro ⟨fuel, res, hres⟩
      exact ⟨fuel, _, _, _, by rw [hpush, hres]; rfl⟩

/-- The result of a push does not depend on the fuel. -/
theorem streamDecoderPush_unique {fuel' : Nat} {res res' : Bool × StreamDecoder L × List Str8}
    (h : streamDecoderPush L fuel d inp = some res) (h' : streamDecoderPush L fuel' d inp = some res') :
    res = res' := by
  have hmap : ∀ {ρ : Type} {f : ρ → Bool × StreamDecoder L × List Str8} {x y : Option ρ},
      x.map f = some res → y.map f = some res' → (∀ a b, x = some a → y = some b → a = b) → res = res' := by
    intro ρ f x y hx hy hxy
    obtain ⟨a, ha, rfl⟩ := Option.map_eq_some_iff.mp hx
    obtain ⟨b, hb, rfl⟩ := Option.map_eq_some_iff.mp hy
    rw [hxy a b ha hb]
  unfold streamDecoderPush at h h'
  split at h
  · next hdead =>
      rw [if_pos hdead] at h'
      cases h
      cases h'
      rfl
  · next hlive =>
      rw [if_neg hlive] at h'
      cases hdec : d.dec with
      | identity =>
        rw [hdec] at h h'
        exact Option.some_inj.mp (h.symm.trans h')
      | gzip zs | brotli br =>
        rw [hdec] at h h'
        exact hmap h h' (fun _ _ => pump_unique)
      | zstd zd =>
        rw [hdec] at h h'
        dsimp only at h h'
        split at h
        · next hnil =>
            rw [if_pos hnil] at h'
            exact Option.some_inj.mp (h.symm.trans h')
        · next hne =>
            rw [if_neg hne] at h'
            exact hmap h h' (fun _ _ => pump_unique)

/-- **Streaming gzip decoding terminates** exactly when no push goes on after the end of the stream: from any
    state of a gzip decoder, for every sequence of pushes. -/
theorem gzip_pushes_terminate_iff (L : Codecs) (zs : L.zlib.State) (totalOut : Nat) (dead : Bool) (pushes : List Str8) :
    EachTerminates L ⟨.gzip zs, totalOut, dead⟩ pushes ↔ NoTrailingBytes L ⟨.gzip zs, totalOut, dead⟩ pushes := by
  have hgen : ∀ (d : StreamDecoder L), (∃ zs, d.dec = .gzip zs) →
      (EachTerminates L d pushes ↔ NoTrailingBytes L d pushes) := by
    induction pushes with
    | nil => exact fun _ _ => Iff.rfl
    | cons inp pushes ih =>
      rintro d ⟨zs, hd⟩
      constructor
      · rintro ⟨fuel, ok, d', chunks, hpush, hrest⟩
        refine ⟨(gzip_push_terminates_iff hd).mp ⟨fuel, ok, d', chunks, hpush⟩, ?_⟩
        intro fuel2 ok2 d2 chunks2 hpush2
        cases streamDecoderPush_unique hpush hpush2
        exact (ih d' (streamDecoderPush_gzip hd hpush)).mp hrest
      · rintro ⟨hno, hrest⟩
        obtain ⟨fuel, ok, d', chunks, hpush⟩ := (gzip_push_terminates_iff hd).mpr hno
        exact ⟨fuel, ok, d', chunks, hpush,
          (ih d' (streamDecoderPush_gzip hd hpush)).mpr (hrest fuel ok d' chunks hpush)⟩
  exact hgen _ ⟨zs, rfl⟩

/-- Libraries that decode stored blocks. -/
def storedCodecs : Codecs where
  zlib := Stored.zlib.inflater
  rawZlib := Stored.raw.inflater
  brotli := Stored.raw.inflater.toDecoder
  zstd := Stored.raw.inflater.toDecoder

/-- The two bytes `hi` in a zlib stream: header, one final stored block, checksum. -/
def hiStream : Str8 := [0x78, 0x01, 0x01, 0x02, 0x00, 0xfd, 0xff, 0x68, 0x69, 0x01, 0x3b, 0x00, 0xd2]

/-- The decoder once that stream has been pushed. -/
def hiDecoded : StreamDecoder storedCodecs := { dec := .gzip Stored.done, totalOut := 2 }

theorem gzip_push_hangs_on_trailing_byte :
    -- in the same push, and in a later one
    ¬ EachTerminates storedCodecs (streamDecoderCreate storedCodecs (lit "gzip")) [hiStream ++ [0x0a]] ∧
      ¬ EachTerminates storedCodecs (streamDecoderCreate storedCodecs (lit "gzip")) [hiStream, [0x0a]] := by
  constructor
  · rintro ⟨fuel, ok, d', chunks, hpush, -⟩
    have hgzip : (streamDecoderCreate storedCodecs (lit "gzip")).dec = .gzip storedCodecs.zlib.init := rfl
    refine (gzip_push_terminates_iff hgzip).mp ⟨fuel, ok, d', chunks, hpush⟩ ?_
    exact ⟨_, rfl, rfl, 0, by decide +kernel, by decide +kernel, by decide +kernel⟩
  · rintro ⟨fuel, ok, d', chunks, hpush, fuel2, ok2, d2, chunks2, hpush2, -⟩
    have hfirst : streamDecoderPush storedCodecs 1 (streamDecoderCreate storedCodecs (lit "gzip")) hiStream =
        some (true, hiDecoded, [lit "hi"]) := rfl
    cases streamDecoderPush_unique hfirst hpush
    have hgzip : hiDecoded.dec = .gzip Stored.done := rfl
    refine (gzip_push_terminates_iff hgzip).mp ⟨fuel2, ok2, d2, chunks2, hpush2⟩ ?_
    exact ⟨_, rfl, rfl, 0, by decide +kernel, by decide +kernel, by decide +kernel⟩

/-! ## How much they give -/

/-- A sequence of pushes: for each one, whether it succeeds and the chunks that `cb` gets. -/
def streamPushes (L : Codecs) (fuel : Nat) : StreamDecoder L → List Str8 → Option (List (Bool × List Str8))
  | _, [] => some []
  | d, inp :: pushes =>
    (streamDecoderPush L fuel d inp).bind (fun res =>
      (streamPushes L fuel res.2.1 pushes).map (fun outs => (res.1, res.2.2) :: outs))

/-- The total and the chunks agree, from a total of `n` on, and the cap is kept. -/
structure Metered (n : Nat) (e : Nat × List Str8) : Prop where
  total : e.1 = n + e.2.flatten.length
  cap : e.1 ≤ decodeMaxOut
  full : ∀ chunk ∈ e.2, chunk ≠ []

theorem decEmit_metered {n : Nat} {e e' : Nat × List Str8} {run : Str8} (h : decEmit e run = some e')
    (hm : Metered n e) :
    Metered n e' := by
  unfold decEmit at h
  split at h
  · cases h
    exact hm
  · next hne =>
      split at h
      · cases h
      · next hcap =>
          cases h
          refine ⟨?_, Nat.le_of_not_lt hcap, List.forall_mem_append.mpr ⟨hm.full, by simpa using hne⟩⟩
          simp [hm.total, Nat.add_assoc]

/-- What a push gives: it keeps the cap, and a failure is for good. -/
structure PushSpec (d d' : StreamDecoder L) (ok : Bool) (chunks : List Str8) : Prop where
  metered : Metered d.totalOut (d'.totalOut, chunks)
  dies : ok = false → d'.dead = true
  dead : d.dead = true → ok = false ∧ chunks = []

theorem afterPush_spec {σ : Type} {wrap : σ → DecState L} {res : Option Ret × σ × Nat × List Str8}
    (hlive : ¬ d.dead = true) (hm : Metered d.totalOut res.2.2) (h : afterPush L wrap res = (ok, d', chunks)) :
    PushSpec d d' ok chunks := by
  cases h
  exact ⟨hm, fun hok => by simpa using hok, fun hdead => absurd hdead hlive⟩

theorem streamDecoderPush_spec (h : streamDecoderPush L fuel d inp = some (ok, d', chunks))
    (hcap : d.totalOut ≤ decodeMaxOut) : PushSpec d d' ok chunks := by
  have hstart : Metered d.totalOut (d.totalOut, []) := ⟨rfl, hcap, by simp⟩
  unfold streamDecoderPush at h
  split at h
  · next hdead =>
      cases h
      exact ⟨hstart, fun _ => hdead, fun _ => ⟨rfl, rfl⟩⟩
  · next hlive =>
      split at h
      · split at h
        · cases h
          exact ⟨hstart, fun _ => rfl, fun hdead => absurd hdead hlive⟩
        · next e hemit =>
            cases h
            exact ⟨decEmit_metered hemit hstart, fun hok => (by cases hok), fun hdead => absurd hdead hlive⟩
      · obtain ⟨res, hres, heq⟩ := Option.map_eq_some_iff.mp h
        exact afterPush_spec hlive (pump_keeps (k := decSink) decEmit_metered hres hstart) heq
      · obtain ⟨res, hres, heq⟩ := Option.map_eq_some_iff.mp h
        exact afterPush_spec hlive (pump_keeps (k := decSink) decEmit_metered hres hstart) heq
      · split at h
        · cases h
          exact ⟨hstart, fun hok => (by cases hok), fun hdead => absurd hdead hlive⟩
        · obtain ⟨res, hres, heq⟩ := Option.map_eq_some_iff.mp h
          exact afterPush_spec hlive (pump_keeps (k := decSink) decEmit_metered hres hstart) heq

variable {pushes : List Str8} {outs : List (Bool × List Str8)}

theorem streamPushes_capped (h : streamPushes L fuel d pushes = some outs) (hcap : d.totalOut ≤ decodeMaxOut) :
    d.totalOut + (outs.flatMap (·.2)).flatten.length ≤ decodeMaxOut ∧ (∀ chunk ∈ outs.flatMap (·.2), chunk ≠ []) ∧
      (d.dead = true → ∀ x ∈ outs, x = (false, [])) ∧ outs.Pairwise (fun x y => x.1 = false → y = (false, [])) := by
  induction pushes generalizing d outs with
  | nil =>
    cases h
    exact ⟨hcap, by simp, by simp, .nil⟩
  | cons inp pushes ih =>
    obtain ⟨⟨ok, d', chunks⟩, hpush, hrest⟩ := Option.bind_eq_some_iff.mp h
    obtain ⟨rest, hrun, rfl⟩ := Option.map_eq_some_iff.mp hrest
    have hspec := streamDecoderPush_spec hpush hcap
    obtain ⟨hlen, hfull, hlater, hpair⟩ := ih hrun hspec.metered.cap
    have htotal := hspec.metered.total
    refine ⟨?_, ?_, ?_, .cons (fun y hy hfail => hlater (hspec.dies hfail) y hy) hpair⟩
    · rw [List.flatMap_cons, List.flatten_append, List.length_append]
      dsimp only at htotal hlen ⊢
      omega
    · rw [List.flatMap_cons]
      exact List.forall_mem_append.mpr ⟨hspec.metered.full, hfull⟩
    · intro hdead
      obtain ⟨hok, hchunks⟩ := hspec.dead hdead
      exact List.forall_mem_cons.mpr ⟨Prod.ext hok hchunks, hlater (hspec.dies hok)⟩

/-- **A stream cannot be blown up.** Over all pushes, `cb` gets at most `DECODE_MAX_OUT` bytes and no empty chunk;
    after a push that fails, every later one fails and gives nothing. -/
theorem stream_decoder_capped (L : Codecs) (fuel : Nat) (encoding : Str8) (pushes : List Str8)
    (outs : List (Bool × List Str8)) (h : streamPushes L fuel (streamDecoderCreate L encoding) pushes = some outs) :
    (outs.flatMap (·.2)).flatten.length ≤ decodeMaxOut ∧ (∀ chunk ∈ outs.flatMap (·.2), chunk ≠ []) ∧
      outs.Pairwise (fun x y => x.1 = false → y = (false, [])) := by
  have hzero : (streamDecoderCreate L encoding).totalOut = 0 := by
    unfold streamDecoderCreate
    dsimp only
    split_ifs <;> rfl
  obtain ⟨hlen, hfull, -, hpair⟩ := streamPushes_capped h (by rw [hzero]; decide)
  rw [hzero, Nat.zero_add] at hlen
  exact ⟨hlen, hfull, hpair⟩

theorem stream_decoder_capped_failed :
    streamPushes storedCodecs 1 (streamDecoderCreate storedCodecs (lit "gzip")) [[0], hiStream] =
        some [(false, []), (false, [])] ∧
      [(false, []), (false, [])].Pairwise (fun (x y : Bool × List Str8) => x.1 = false → y = (false, [])) :=
  ⟨rfl, (stream_decoder_capped storedCodecs 1 (lit "gzip") [[0], hiStream] _ rfl).2.2⟩

theorem atOnce_capped {dec : Decoder UInt8} {again : Call dec.State UInt8 → Bool} {st : dec.State} {data body : Str8}
    {done : Option Ret × dec.State × Str8 → Option Str8} (hdone : ∀ {res b}, done res = some b → res.2.2 = b)
    (h : (pump dec (appendSink decodeMaxOut) again decodeBuf fuel st data []).map done = some (some body)) :
    body.length ≤ decodeMaxOut := by
  obtain ⟨res, hres, hbody⟩ := Option.map_eq_some_iff.mp h
  rw [← hdone hbody]
  refine pump_keeps (I := fun out => out.length ≤ decodeMaxOut) ?_ hres (Nat.zero_le _)
  intro e out e' hemit _
  obtain ⟨hcap, hout⟩ := Option.ite_none_left_eq_some.mp hemit
  cases hout
  exact Nat.le_of_not_lt hcap

/-- **Nor can a body that is decoded at once**: it is the data as they came, or within the cap. -/
theorem decode_content_capped (L : Codecs) (fuel : Nat) (encoding data body : Str8)
    (h : decodeContent L fuel encoding data = some (some body)) :
    (lastCoding encoding = [] ∨ str8MatchCi (lastCoding encoding) (lit "identity") = true) ∧ body = data ∨
      body.length ≤ decodeMaxOut := by
  have hzlib : ∀ {Z : Inflater UInt8}, zlibInflate Z fuel data = some (some body) → body.length ≤ decodeMaxOut :=
    atOnce_capped (by simp)
  unfold decodeContent at h
  dsimp only at h
  split_ifs at h with hid hzstd hbr hgzip hdeflate
  · cases h
    exact .inl ⟨hid, rfl⟩
  · unfold zstdDecode at h
    split_ifs at h
    · cases h
      exact .inr (Nat.zero_le _)
    · exact .inr (atOnce_capped (by simp) h)
  · exact .inr (atOnce_capped (by simp) h)
  · exact .inr (hzlib h)
  · split at h
    · exact .inr (hzlib h)
    · exact .inr (hzlib h)
  · cases h

theorem decode_content_capped_hi :
    decodeContent storedCodecs 1 (lit "gzip") hiStream = some (some (lit "hi")) ∧ (lit "hi").length ≤ decodeMaxOut :=
  ⟨rfl, (decode_content_capped storedCodecs 1 (lit "gzip") hiStream (lit "hi") rfl).resolve_left (by decide)⟩

end HolyTls
