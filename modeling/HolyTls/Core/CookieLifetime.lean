import HolyTls.Core.CookieJar

/-!
# `Core.CookieLifetime` — how long a stored cookie lives (`src/core/cookie.c`)

RFC 6265 decides the lifetime of a cookie from the whole list of its attributes: the last valid `Max-Age`,
else the last `Expires` that is a date, else the cookie lasts for the session (`refLifetime`). The code
decides it in one pass that keeps four variables. What they are after any number of attributes is said by
`LifeVars`, one attribute at a time; from it follows for which attribute lists the two agree
(`storeLifetime_iff`).

They part in three ways: the code reads a `Max-Age` that is no number as one, adds it to the clock in 64
bits, and once a date has passed never takes that back; and a date at or before the epoch is no date to it.
-/

namespace HolyTls

/-! ## The rule -/

/-- The segments after the first semicolon, trimmed. -/
def storeSegments (sc : Str8) : List Str8 :=
  forEachAttr (fun segs seg => segs ++ [seg]) (str8ChopByDelim sc 59).2.length (str8ChopByDelim sc 59).2 []

/-- The values of the attributes of one name, in order. -/
def attrValues (name : Str8) (segs : List Str8) : List Str8 :=
  (segs.map splitAttr).filterMap (fun a => if str8MatchCi a.1 name then some a.2 else none)

/-- The seconds since 1970 that a date denotes, negative before it. `http_date_parse` is this, except that it
    has one number for a date up to 1970 and for what is no date. -/
def httpDate? (s : Str8) : Option Int :=
  match dateLoop s.length s {} with
  | { time := some (hh, mm, ss), day := some day, month := some month, year := some year } =>
    let year := if 70 ≤ year && year ≤ 99 then year + 1900 else if year ≤ 69 then year + 2000 else year
    if day < 1 || day > 31 || month < 1 || month > 12 || hh > 23 || mm > 59 || ss > 59 || year < 1601
    then none
    else some (cookieDaysFromCivil year month day * 86400 + hh * 3600 + mm * 60 + ss)
  | _ => none

/-- A valid `Max-Age`: an optional minus sign and digits, at least one. -/
def maxAge? : Str8 → Option Int
  | 45 :: ds => if cookieAllDigits ds then some (-(digitsValue ds 0 : Int)) else none
  | ds => if cookieAllDigits ds then some (digitsValue ds 0 : Int) else none

/-- What an attribute list says about the life of a cookie. -/
inductive Lifetime
  | deleted
  | atLeast (t : Nat)
  | exactly (t : Nat)
  | session
deriving DecidableEq

def maxAges (segs : List Str8) : List Str8 := attrValues (lit "max-age") segs

def dates (segs : List Str8) : List Int := (attrValues (lit "expires") segs).filterMap httpDate?

/-- The rule of RFC 6265, without a bound on numbers. -/
def refLifetime (now : Nat) (segs : List Str8) : Lifetime :=
  match ((maxAges segs).filterMap maxAge?).getLast? with
  | some v => if v ≤ 0 then .deleted else .atLeast (min (now + v.toNat) u64Max)
  | none =>
    match (dates segs).getLast? with
    | some d => if d ≤ now then .deleted else .exactly d.toNat
    | none => .session

/-- The code does what the rule says. -/
def Lifetime.Allows : Lifetime → StoreOutcome → Prop
  | .deleted, o => ∃ name domain path, o = .expired name domain path
  | .atLeast t, o => ∃ c, o = .put c ∧ t ≤ c.expiresEpoch
  | .exactly t, o => ∃ c, o = .put c ∧ c.expiresEpoch = t
  | .session, o => ∃ c, o = .put c ∧ c.expiresEpoch = 0

/-! ## The loop -/

section

variable {now : Nat} {st : StoreAttrs} {segs : List Str8} {seg val : Str8}

theorem httpDateParse_eq (s : Str8) : httpDateParse s = ((httpDate? s).getD 0).toNat := by
  unfold httpDateParse httpDate?
  generalize dateLoop s.length s {} = f
  rcases f with ⟨_ | ⟨hh, mm, ss⟩, _ | day, _ | month, _ | year⟩ <;> try rfl
  dsimp only
  generalize (if (decide (70 ≤ year) && decide (year ≤ 99)) = true then year + 1900
    else if year ≤ 69 then year + 2000 else year) = y
  split <;> rfl

/-- The loop of the source is a fold over the segments. -/
theorem forEachAttr_eq_foldl {σ : Type} (body : σ → Str8 → σ) (fuel : Nat) (av : Str8) (init : σ) :
    forEachAttr body fuel av init = (forEachAttr (fun segs seg => segs ++ [seg]) fuel av []).foldl body init := by
  have hrel := forEachAttr_rel (fun (s : σ) (segs : List Str8) => s = segs.foldl body init)
    (f := body) (g := fun segs seg => segs ++ [seg]) (by
      rintro s segs seg rfl
      rw [List.foldl_append, List.foldl_cons, List.foldl_nil])
  exact hrel fuel av init [] rfl

/-- The seconds that the code reads from a `Max-Age`; 0 stands for a deletion. -/
def maxAgeRead (val : Str8) : Nat := if val.head? = some 45 then 0 else str8ToU64 val

/-- The variables of the source that decide the lifetime. -/
structure LifeVars where
  hasExpiry : Bool
  expiredNow : Bool
  maxageSet : Bool
  expires : Nat
deriving DecidableEq

def StoreAttrs.life (st : StoreAttrs) : LifeVars := ⟨st.hasExpiry, st.expiredNow, st.maxageSet, st.expires⟩

theorem storeMaxAge_life : (storeMaxAge now val st).life =
    if maxAgeRead val = 0 then ⟨true, true, true, 1⟩ else ⟨true, false, true, (now + maxAgeRead val) % 2 ^ 64⟩ := by
  unfold storeMaxAge maxAgeRead
  by_cases hneg : val.head? = some 45
  · simp [hneg, StoreAttrs.life]
  · by_cases hzero : str8ToU64 val = 0 <;> simp [hneg, hzero, StoreAttrs.life]

theorem storeExpires_life : (storeExpires now val st).life =
    if st.maxageSet then st.life
    else
      match httpDate? val with
      | some d => if 0 < d then ⟨true, st.expiredNow || decide (d ≤ now), false, d.toNat⟩ else st.life
      | none => st.life := by
  unfold storeExpires
  rw [httpDateParse_eq]
  by_cases hset : st.maxageSet = true
  · simp [hset]
  · rw [Bool.not_eq_true] at hset
    cases hdate : httpDate? val with
    | none => simp [hset]
    | some d =>
      by_cases hpos : 0 < d
      · have hne : ¬ d.toNat = 0 := by omega
        have hle : (d.toNat ≤ now) ↔ d ≤ (now : Int) := by omega
        simp [hset, hpos, hne, StoreAttrs.life, hle]
      · have hz : d.toNat = 0 := by omega
        simp [hset, hpos, hz]

theorem storeAttr_life : (storeAttr now st seg).life =
    if str8MatchCi (splitAttr seg).1 (lit "expires") then (storeExpires now (splitAttr seg).2 st).life
    else if str8MatchCi (splitAttr seg).1 (lit "max-age") then (storeMaxAge now (splitAttr seg).2 st).life
    else st.life := by
  unfold storeAttr
  by_cases hnil : seg = []
  · subst hnil
    rfl
  · rw [if_neg (by simpa using hnil)]
    dsimp only
    split
    · rfl
    · split
      · rfl
      · split
        · split <;> rfl
        · split
          · split <;> rfl
          · split
            · rfl
            · split
              · rfl
              · split <;> rfl

/-- The variables after the attributes `segs`: the last `Max-Age` has set them all, and without one they
    follow the dates. -/
def lifeAfter (now : Nat) (segs : List Str8) : LifeVars :=
  match (maxAges segs).getLast? with
  | some val =>
    if maxAgeRead val = 0 then ⟨true, true, true, 1⟩ else ⟨true, false, true, (now + maxAgeRead val) % 2 ^ 64⟩
  | none =>
    let seen := (dates segs).filter (fun d => 0 < d)
    ⟨!seen.isEmpty, seen.any (fun d => d ≤ now), false, (seen.getLast?.getD 0).toNat⟩

theorem attrValues_append (name : Str8) : attrValues name (segs ++ [seg]) =
    attrValues name segs ++ if str8MatchCi (splitAttr seg).1 name then [(splitAttr seg).2] else [] := by
  unfold attrValues
  rw [List.map_append, List.filterMap_append]
  congr 1
  rw [List.map_cons, List.map_nil, List.filterMap_cons]
  by_cases h : str8MatchCi (splitAttr seg).1 name = true
  · rw [if_pos h, if_pos h]
    rfl
  · rw [if_neg h, if_neg h]
    rfl

theorem foldl_storeAttr_life (h : st.life = ⟨false, false, false, 0⟩) :
    (segs.foldl (storeAttr now) st).life = lifeAfter now segs := by
  induction segs using List.reverseRecOn with
  | nil => exact h
  | append_singleton segs seg ih =>
    rw [List.foldl_append, List.foldl_cons, List.foldl_nil, storeAttr_life]
    have hset : (segs.foldl (storeAttr now) st).maxageSet = (lifeAfter now segs).maxageSet :=
      congrArg LifeVars.maxageSet ih
    have hexp : (segs.foldl (storeAttr now) st).expiredNow = (lifeAfter now segs).expiredNow :=
      congrArg LifeVars.expiredNow ih
    by_cases hE : str8MatchCi (splitAttr seg).1 (lit "expires") = true
    · -- a date is looked at while there is no `Max-Age`
      have hM : str8MatchCi (splitAttr seg).1 (lit "max-age") = false := str8MatchCi_of_ne hE (by decide)
      have hmax : maxAges (segs ++ [seg]) = maxAges segs := by
        rw [maxAges, attrValues_append, if_neg (by simp [hM]), List.append_nil]
        rfl
      have hdates : dates (segs ++ [seg]) = dates segs ++ (httpDate? (splitAttr seg).2).toList := by
        rw [dates, attrValues_append, if_pos hE, List.filterMap_append]
        cases hd : httpDate? (splitAttr seg).2 <;> simp [dates, hd]
      rw [if_pos hE, storeExpires_life, ih, hset, hexp]
      unfold lifeAfter
      rw [hmax, hdates]
      cases (maxAges segs).getLast? with
      | some val =>
        dsimp only
        by_cases hz : maxAgeRead val = 0 <;> simp [hz]
      | none =>
        dsimp only
        cases httpDate? (splitAttr seg).2 with
        | none => simp
        | some d => by_cases hpos : 0 < d <;> simp [hpos, List.filter_append]
    · by_cases hM : str8MatchCi (splitAttr seg).1 (lit "max-age") = true
      · have hmax : maxAges (segs ++ [seg]) = maxAges segs ++ [(splitAttr seg).2] := by
          rw [maxAges, attrValues_append, if_pos hM]
          rfl
        rw [if_neg hE, if_pos hM, storeMaxAge_life, lifeAfter, hmax, List.getLast?_append]
        rfl
      · have hmax : maxAges (segs ++ [seg]) = maxAges segs := by
          rw [maxAges, attrValues_append, if_neg hM, List.append_nil]
          rfl
        have hdates : dates (segs ++ [seg]) = dates segs := by
          rw [dates, attrValues_append, if_neg hE, List.append_nil]
          rfl
        rw [if_neg hE, if_neg hM, ih, lifeAfter, lifeAfter, hmax, hdates]

end

/-! ## Where the code follows the rule -/

/-- What the code makes of the variables, in a store that is not rejected. -/
theorem cookieStoreOutcome_life {psl : PslTables} {req : ParsedUrl} {sc : Str8} {now : Nat}
    (h : cookieStoreOutcome psl req sc now ≠ .rejected) :
    let life := lifeAfter now (storeSegments sc)
    (life.expiredNow = true ∧ ∃ name domain path, cookieStoreOutcome psl req sc now = .expired name domain path) ∨
    (life.expiredNow = false ∧ ∃ c, cookieStoreOutcome psl req sc now = .put c ∧
      c.expiresEpoch = if life.hasExpiry then life.expires else 0) := by
  intro life
  have hloop : ∀ st : StoreAttrs, st.life = ⟨false, false, false, 0⟩ →
      (forEachAttr (storeAttr now) (str8ChopByDelim sc 59).2.length (str8ChopByDelim sc 59).2 st).life = life := by
    intro st hst
    rw [forEachAttr_eq_foldl]
    exact foldl_storeAttr_life hst
  have hlife := hloop { domain := req.host, path := cookieDefaultPath req.path } rfl
  unfold cookieStoreOutcome at h ⊢
  dsimp only at h ⊢
  cases heq : str8IndexOf (str8Trim (str8ChopByDelim sc 59).1) 61 with
  | none => rw [heq] at h; exact absurd rfl h
  | some eq =>
    rw [heq] at h
    dsimp only at h ⊢
    split at h
    · exact absurd rfl h
    · next hname =>
        rw [if_neg hname]
        revert h hlife
        generalize forEachAttr (storeAttr now) (str8ChopByDelim sc 59).2.length (str8ChopByDelim sc 59).2
          { domain := req.host, path := cookieDefaultPath req.path } = st
        intro hlife h
        cases hdom : storeDomain psl req.host st.domain st.hostOnly with
        | none => rw [hdom] at h; exact absurd rfl h
        | some dh =>
          rw [← hlife]
          dsimp only [StoreAttrs.life]
          cases hexp : st.expiredNow with
          | true => exact .inl ⟨rfl, _, _, _, rfl⟩
          | false => exact .inr ⟨rfl, _, rfl, rfl⟩

/-- Where the code follows the rule. The cases are those of the last `Max-Age`: there is none, it is valid,
    or the code reads a number from it although it is not. -/
def LifetimeKept (now : Nat) (segs : List Str8) : Prop :=
  match (maxAges segs).getLast? with
  | none => ∀ d, (dates segs).getLast? = some d → (d ≤ now ↔ ∃ e ∈ dates segs, 0 < e ∧ e ≤ now)
  | some val =>
    match maxAge? val with
    | some v => v ≤ 0 ∨ now + min v.toNat u64Max < 2 ^ 64
    | none =>
      match refLifetime now segs with
      | .deleted => maxAgeRead val = 0
      | .atLeast t => maxAgeRead val ≠ 0 ∧ t ≤ (now + maxAgeRead val) % 2 ^ 64
      | .exactly t => maxAgeRead val ≠ 0 ∧ (now + maxAgeRead val) % 2 ^ 64 = t
      | .session => maxAgeRead val ≠ 0 ∧ (now + maxAgeRead val) % 2 ^ 64 = 0

theorem maxAgeRead_of_valid {val : Str8} {v : Int} (h : maxAge? val = some v) :
    maxAgeRead val = min v.toNat u64Max := by
  have hdigits : ∀ ds : Str8, cookieAllDigits ds = true → str8ToU64 ds = min (digitsValue ds 0) u64Max := by
    intro ds hds
    have hall : ∀ c ∈ ds, charIsDigit c = true := by
      rw [cookieAllDigits, Bool.and_eq_true, List.all_eq_true] at hds
      exact hds.2
    rw [str8ToU64_eq, List.takeWhile_eq_self_iff.mpr hall]
  unfold maxAge? at h
  split at h
  · next ds =>
      split at h
      · cases h
        have hneg : (-(digitsValue ds 0 : Int)).toNat = 0 := by omega
        rw [hneg]
        rfl
      · cases h
  · next hno =>
      split at h
      · next hds =>
          cases h
          have hhead : ¬ val.head? = some 45 := by
            intro hh
            obtain ⟨ds, rfl⟩ := List.head?_eq_some_iff.mp hh
            exact hno ds rfl
          rw [maxAgeRead, if_neg hhead, hdigits val hds, Int.toNat_natCast]
      · cases h

theorem getLast?_filterMap_of_last {α β : Type} {f : α → Option β} {l : List α} {a : α} {b : β}
    (hl : l.getLast? = some a) (hf : f a = some b) : (l.filterMap f).getLast? = some b := by
  obtain ⟨init, rfl⟩ := List.getLast?_eq_some_iff.mp hl
  rw [List.filterMap_append]
  simp [hf]

/-- Whether the sum of clock and `Max-Age` is large enough depends on whether it wraps. -/
theorem wrapped_sum_iff {now n : Nat} (hnow : now < 2 ^ 64) (hn : 0 < n) :
    min (now + n) u64Max ≤ (now + min n u64Max) % 2 ^ 64 ↔ now + min n u64Max < 2 ^ 64 := by
  have hmax : u64Max = 2 ^ 64 - 1 := rfl
  constructor
  · intro h
    by_contra hwrap
    have hmod : (now + min n u64Max) % 2 ^ 64 = now + min n u64Max - 2 ^ 64 := by
      rw [Nat.mod_eq_sub_mod (by omega), Nat.mod_eq_of_lt (by omega)]
    omega
  · intro h
    rw [Nat.mod_eq_of_lt h]
    omega

/-- **The lifetime of a stored cookie follows the rule** exactly under `LifetimeKept`, for every attribute
    list of a string that is not rejected and every time. -/
theorem storeLifetime_iff (psl : PslTables) (req : ParsedUrl) (sc : Str8) (now : UInt64)
    (hdomain : cookieStoreOutcome psl req sc now.toNat ≠ .rejected) :
    (refLifetime now.toNat (storeSegments sc)).Allows (cookieStoreOutcome psl req sc now.toNat) ↔
      LifetimeKept now.toNat (storeSegments sc) := by
  have hnow : now.toNat < 2 ^ 64 := now.toNat_lt
  have hout := cookieStoreOutcome_life hdomain
  dsimp only at hout
  revert hout
  generalize cookieStoreOutcome psl req sc now.toNat = o
  generalize now.toNat = now at hnow ⊢
  generalize storeSegments sc = segs
  intro hout
  -- the outcome, read off the variables
  have hdel : (∃ name domain path, o = .expired name domain path) ↔ (lifeAfter now segs).expiredNow = true := by
    rcases hout with ⟨hl, hx⟩ | ⟨hl, c, rfl, -⟩
    · exact ⟨fun _ => hl, fun _ => hx⟩
    · simp [hl]
  have hput : ∀ P : Nat → Prop, (∃ c, o = .put c ∧ P c.expiresEpoch) ↔ (lifeAfter now segs).expiredNow = false ∧
      P (if (lifeAfter now segs).hasExpiry then (lifeAfter now segs).expires else 0) := by
    intro P
    rcases hout with ⟨hl, _, _, _, rfl⟩ | ⟨hl, c, rfl, hc⟩
    · simp [hl]
    · simp [hl, hc]
  unfold LifetimeKept
  cases hlast : (maxAges segs).getLast? with
  | some val =>
    have hlife : lifeAfter now segs = if maxAgeRead val = 0 then ⟨true, true, true, 1⟩
        else ⟨true, false, true, (now + maxAgeRead val) % 2 ^ 64⟩ := by
      rw [lifeAfter, hlast]
    dsimp only
    cases hvalid : maxAge? val with
    | some v =>
      dsimp only
      have hread := maxAgeRead_of_valid hvalid
      rw [refLifetime, getLast?_filterMap_of_last hlast hvalid]
      dsimp only
      by_cases hv : v ≤ 0
      · have hz : maxAgeRead val = 0 := by
          rw [hread, Int.toNat_of_nonpos hv, Nat.zero_min]
        rw [if_pos hv, Lifetime.Allows, hdel, hlife, if_pos hz]
        simp [hv]
      · have hmax : u64Max = 2 ^ 64 - 1 := rfl
        have hz : ¬ maxAgeRead val = 0 := by
          rw [hread]
          omega
        rw [if_neg hv, Lifetime.Allows, hput (fun e => min (now + v.toNat) u64Max ≤ e), hlife, if_neg hz, hread,
          or_iff_right hv]
        dsimp only
        rw [if_pos rfl, and_iff_right rfl]
        exact wrapped_sum_iff hnow (by omega)
    | none =>
      dsimp only
      cases refLifetime now segs with
      | deleted =>
        rw [Lifetime.Allows, hdel, hlife]
        by_cases hz : maxAgeRead val = 0 <;> simp [hz]
      | atLeast t =>
        rw [Lifetime.Allows, hput (fun e => t ≤ e), hlife]
        by_cases hz : maxAgeRead val = 0 <;> simp [hz]
      | exactly t =>
        rw [Lifetime.Allows, hput (fun e => e = t), hlife]
        by_cases hz : maxAgeRead val = 0 <;> simp [hz]
      | session =>
        rw [Lifetime.Allows, hput (fun e => e = 0), hlife]
        by_cases hz : maxAgeRead val = 0 <;> simp [hz]
  | none =>
    have hno : ((maxAges segs).filterMap maxAge?).getLast? = none := by
      rw [List.getLast?_eq_none_iff.mp hlast]
      rfl
    have hlife : lifeAfter now segs =
        ⟨!((dates segs).filter (fun d => 0 < d)).isEmpty, ((dates segs).filter (fun d => 0 < d)).any (fun d => d ≤ now),
          false, ((((dates segs).filter (fun d => 0 < d)).getLast?).getD 0).toNat⟩ := by
      rw [lifeAfter, hlast]
    have hany : ((dates segs).filter (fun d => 0 < d)).any (fun d => decide (d ≤ now)) = true ↔
        ∃ e ∈ dates segs, 0 < e ∧ e ≤ now := by
      simp
    rw [refLifetime, hno]
    dsimp only
    cases hd : (dates segs).getLast? with
    | none =>
      have hempty : dates segs = [] := List.getLast?_eq_none_iff.mp hd
      dsimp only
      rw [Lifetime.Allows, hput (fun e => e = 0), hlife, hempty]
      simp
    | some d =>
      dsimp only
      have hone : (∀ d', some d = some d' → (d' ≤ (now : Int) ↔ ∃ e ∈ dates segs, 0 < e ∧ e ≤ now)) ↔
          (d ≤ now ↔ ∃ e ∈ dates segs, 0 < e ∧ e ≤ now) := by
        simp
      rw [hone, ← hany]
      by_cases hle : d ≤ now
      · rw [if_pos hle, Lifetime.Allows, hdel, hlife, iff_true_left hle]
      · -- a last date after `now` is after 1970, so it is the last one the code has seen
        have hpos : 0 < d := by omega
        have hseen : ((dates segs).filter (fun d => 0 < d)).getLast? = some d := by
          obtain ⟨init, hinit⟩ := List.getLast?_eq_some_iff.mp hd
          rw [hinit, List.filter_append]
          simp [hpos]
        have hne : ((dates segs).filter (fun d => 0 < d)).isEmpty = false := by
          rw [List.isEmpty_eq_false_iff]
          intro hnil
          rw [hnil] at hseen
          cases hseen
        rw [if_neg hle, Lifetime.Allows, hput (fun e => e = d.toNat), hlife, hseen, hne, iff_false_left hle]
        simp

/-- What a store of `sc` from `https://a.com/` comes to at time 1000. -/
def storedAt1000 (sc : String) : StoreOutcome :=
  cookieStoreOutcome comTables (urlParse (lit "https://a.com/")) (lit sc) 1000

/-- The cookie that such a store writes for the pair `a=1` without other attributes. -/
def cookieUntil (t : Nat) : Cookie :=
  { name := lit "a", value := lit "1", domain := lit "a.com", path := lit "/", expiresEpoch := t
    hostOnly := true, secure := false, httpOnly := false, sameSite := 0 }

theorem storeLifetime_maxAge :
    storedAt1000 "a=1; Max-Age=x; Expires=Thu, 01 Jan 1970 00:00:01 GMT; max-age=60" ≠ .rejected ∧
      (refLifetime 1000 (storeSegments (lit "a=1; Max-Age=x; Expires=Thu, 01 Jan 1970 00:00:01 GMT; max-age=60"))).Allows
        (storedAt1000 "a=1; Max-Age=x; Expires=Thu, 01 Jan 1970 00:00:01 GMT; max-age=60") := by
  have haccepted : storedAt1000 "a=1; Max-Age=x; Expires=Thu, 01 Jan 1970 00:00:01 GMT; max-age=60" ≠ .rejected := by
    decide +kernel
  have hlast : (maxAges (storeSegments
      (lit "a=1; Max-Age=x; Expires=Thu, 01 Jan 1970 00:00:01 GMT; max-age=60"))).getLast? = some (lit "60") := by
    decide +kernel
  refine ⟨haccepted, (storeLifetime_iff comTables (urlParse (lit "https://a.com/")) _ 1000 haccepted).mpr ?_⟩
  have hvalid : maxAge? (lit "60") = some 60 := by decide
  rw [LifetimeKept, hlast]
  dsimp only
  rw [hvalid]
  exact .inr (by decide)

theorem storeLifetime_broken :
    -- a sum that wraps: an expiry in the past
    refLifetime 1000 (storeSegments (lit "a=1; Max-Age=18446744073709551615")) = .atLeast (2 ^ 64 - 1) ∧
    storedAt1000 "a=1; Max-Age=18446744073709551615" = .put (cookieUntil 999) ∧
    -- a `Max-Age` that is no number
    refLifetime 1000 (storeSegments (lit "a=1; Max-Age=soon")) = .session ∧
    storedAt1000 "a=1; Max-Age=soon" = .expired (lit "a") (lit "a.com") (lit "/") ∧
    -- a past date that a later one replaces
    refLifetime 1000 (storeSegments
      (lit "a=1; Expires=Thu, 01 Jan 1970 00:00:01 GMT; Expires=Thu, 01 Jan 1970 01:00:00 GMT")) = .exactly 3600 ∧
    storedAt1000 "a=1; Expires=Thu, 01 Jan 1970 00:00:01 GMT; Expires=Thu, 01 Jan 1970 01:00:00 GMT" =
      .expired (lit "a") (lit "a.com") (lit "/") ∧
    -- the epoch itself
    refLifetime 1000 (storeSegments (lit "a=1; Expires=Thu, 01 Jan 1970 00:00:00 GMT")) = .deleted ∧
    storedAt1000 "a=1; Expires=Thu, 01 Jan 1970 00:00:00 GMT" = .put (cookieUntil 0) := by
  decide +kernel

end HolyTls
