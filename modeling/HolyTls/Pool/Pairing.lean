import HolyTls.H1.Reading
import HolyTls.Pool.Books

/-!
# `Pool.Pairing` — HTTP/1.1 answers and their requests

Bytes that come on an HTTP/1.1 connection are fed to the session of the request at the head of its active
list. That this is the request they answer follows from the history of the connection: it is free for the
next request only once all answers to the requests written before have been read to their ends. `PairedAt`
says so in terms of what was written and what was read; the one thing that breaks it is a deadline that
frees the slot while the answer is still to come (`h1Expired`).
-/

namespace HolyTls

/-- A server: what it sends for the `k`-th request on a connection, by whether that is a HEAD request. -/
abbrev Server := ConnId → Nat → Bool → Str8

section

variable (phr : Phr) (srv : Server) (head : ReqId → Bool)

/-- The answers to the requests `W` of a connection, in their order. -/
def answersTo (c : ConnId) (W : List ReqId) : Str8 := (W.zipIdx.map fun x => srv c x.2 (head x.1)).flatten

/-- The server answers in order: what is read is a beginning of its answers to the requests written so far,
    and the connection does not end inside a body that ends with the connection. -/
def PoolEvent.Served : PoolEvent → Prop
  | h1Read c W before data => before ++ data <+: answersTo srv head c W
  | h1Closed c W before => ∀ pre r part, W = pre ++ [r] → before = answersTo srv head c pre ++ part →
      (h1Reading phr (head r) part).isSome = true → part = srv c pre.length (head r)
  | _ => True

/-- The response is what the server sent for a request `r` on the connection. -/
def Answers (s : Pool) (c : ConnId) (r : ReqId) (g : Response) : Prop :=
  ∃ k, (s.conn c).written[k]? = some r ∧ h1Reading phr (head r) (srv c k (head r)) = some g

/-- An HTTP/1.1 connection that can still be read from is in the middle of the answer to its active request,
    or has read all answers, unless it is not used any more. -/
structure PairedAt (s : Pool) (c : ConnId) : Prop where
  one : (s.conn c).active.length ≤ 1
  told : ∀ r h, r ∈ (s.conn c).active → (s.reqs r).h1 = some h → h.delivered = true →
    Answers phr srv head s c r h.answer
  busy : (s.conn c).ended = false → ∀ r, (s.conn c).active = [r] → ∃ pre part h,
    (s.conn c).written = pre ++ [r] ∧ (s.conn c).readBytes = answersTo srv head c pre ++ part ∧
      part <+: srv c pre.length (head r) ∧ (s.reqs r).h1 = some h ∧ SessionAt phr (head r) part h
  idle : (s.conn c).ended = false → (s.conn c).active = [] → (s.conn c).broken = true ∨
    (s.conn c).state = .closing ∨ (s.conn c).readBytes = answersTo srv head c (s.conn c).written

end

section

variable {cfg : PoolCfg} {phr : Phr} {srv : Server} {head : ReqId → Bool} {w w' : PoolWorld} {o l : List PoolEvent}
  {r x : ReqId} {c y : ConnId} {s s' : Pool} {H : List Held} {W : List ReqId} {g : Response}

variable {h : H1Session} {pc : PoolConn}

theorem answersTo_snoc : answersTo srv head c (W ++ [r]) = answersTo srv head c W ++ srv c W.length (head r) := by
  simp [answersTo, List.zipIdx_append]

theorem Answers.of_written (h : Answers phr srv head s c r g) (hw : (s.conn c).written <+: (s'.conn c).written) :
    Answers phr srv head s' c r g := by
  obtain ⟨k, hk, hg⟩ := h
  obtain ⟨t, ht⟩ := hw
  have hlt : k < (s.conn c).written.length := (List.getElem?_eq_some_iff.mp hk).1
  exact ⟨k, by rw [← ht, List.getElem?_append_left hlt, hk], hg⟩

/-- Nothing of it changes. -/
theorem PairedAt.keep (hp : PairedAt phr srv head s c) (hpc : s'.conn c = pc)
    (hact : pc.active = (s.conn c).active) (hwr : pc.written = (s.conn c).written)
    (hrd : pc.readBytes = (s.conn c).readBytes) (hend : pc.ended = (s.conn c).ended)
    (hbr : (s.conn c).broken = true → pc.broken = true)
    (hcl : (s.conn c).state = .closing → pc.state = .closing)
    (hreq : ∀ r ∈ (s.conn c).active, (s'.reqs r).h1 = (s.reqs r).h1) : PairedAt phr srv head s' c := by
  subst hpc
  refine ⟨hact ▸ hp.one, ?_, ?_, ?_⟩
  · intro r h hr hh1 hdel
    rw [hact] at hr
    rw [hreq r hr] at hh1
    exact (hp.told r h hr hh1 hdel).of_written (by rw [hwr])
  · intro he r hr
    rw [hend] at he
    rw [hact] at hr
    rw [hreq r (by rw [hr]; exact List.mem_cons_self), hwr, hrd]
    exact hp.busy he r hr
  · intro he hr
    rw [hend] at he
    rw [hact] at hr
    rw [hwr, hrd]
    rcases hp.idle he hr with h | h | h
    · exact Or.inl (hbr h)
    · exact Or.inr (Or.inl (hcl h))
    · exact Or.inr (Or.inr h)

/-- Nothing is active. -/
theorem PairedAt.of_idle (hpc : s'.conn c = pc) (hact : pc.active = [])
    (hidle : pc.ended = false → pc.broken = true ∨ pc.state = .closing ∨
      pc.readBytes = answersTo srv head c pc.written) : PairedAt phr srv head s' c := by
  subst hpc
  refine ⟨by rw [hact]; exact Nat.zero_le 1, ?_, ?_, fun he _ => hidle he⟩
  · intro r h hr
    rw [hact] at hr
    cases hr
  · intro _ r hr
    rw [hact] at hr
    cases hr

theorem PairedAt.active_eq (hp : PairedAt phr srv head s c) (hr : r ∈ (s.conn c).active) : (s.conn c).active = [r] := by
  have hone := hp.one
  cases hact : (s.conn c).active with
  | nil =>
    rw [hact] at hr
    cases hr
  | cons a l =>
    rw [hact] at hr hone
    have hl : l = [] := List.eq_nil_of_length_eq_zero (Nat.le_zero.mp (Nat.le_of_succ_le_succ hone))
    subst hl
    rw [List.mem_singleton.mp hr]

/-! ## Moves that do not read -/

/-- A request on the active list keeps its session, unless it is read. -/
theorem Turn.h1_same (h : Turn cfg w o w') (hb : Base w) (hw : AllPlaced w) (hr : r ∈ (w.2.conn c).active)
    (hread : ∀ e ∈ o, e.reads = false) : (w'.2.reqs r).h1 = (w.2.reqs r).h1 := by
  obtain ⟨p, hp⟩ := hw r
  have hactive := hp.at_active hr
  subst hactive
  cases h.reqChange (r := r) with
  | same h => exact h.h1
  | born hn => exact absurd (hb.lists c r (Or.inr (Or.inl hr))) (by rw [hn]; exact Nat.lt_irrefl _)
  | reset hhand _ _ =>
    rcases hhand with ⟨got, hhand⟩ | hhand
    · cases hp.at_mem hhand rfl rfl
    · cases hp.at_mem hhand rfl rfl
  | started hhand _ _ _ => cases hp.at_mem hhand rfl rfl
  | streamOpened _ _ _ _ hh1 => exact hh1
  | fed _ hev _ _ _ _ | eof hev _ _ _ _ => cases hread _ (hev ▸ List.mem_cons_self)

/-- A new request is written when everything has been read. -/
theorem PairedAt.written (hc : phr.Contract) (hp : PairedAt phr srv head s c)
    (hk : (s.conn c).inflight = (s.conn c).active.length) (hproto : (s.conn c).proto = .h1)
    (hcap : poolConnHasCapacity (s.conn c) = true) (hpc : s'.conn c = pc)
    (hwr : pc.written = (s.conn c).written ++ [r]) (hact : pc.active = r :: (s.conn c).active)
    (hrd : pc.readBytes = (s.conn c).readBytes) (hend : pc.ended = (s.conn c).ended)
    (hh1 : (s'.reqs r).h1 = some (h1SessionStart (head r))) : PairedAt phr srv head s' c := by
  subst hpc
  have hempty : (s.conn c).active = [] := by
    apply List.eq_nil_of_length_eq_zero
    rw [← hk]
    exact (inflight_of_capacity hcap).1 hproto
  obtain ⟨hready, hsound⟩ := ready_of_capacity hcap
  rw [hempty] at hact
  refine ⟨by rw [hact]; exact le_rfl, ?_, ?_, fun _ h => (by rw [hact] at h; cases h)⟩
  · intro r' h hr' hh hdel
    rw [hact, List.mem_singleton] at hr'
    subst hr'
    rw [hh1] at hh
    cases hh
    cases hdel
  · intro he r' hr'
    rw [hact] at hr'
    cases hr'
    rw [hend] at he
    refine ⟨(s.conn c).written, [], _, hwr, ?_, List.nil_prefix, hh1, .start hc⟩
    rw [hrd, List.append_nil]
    rcases hp.idle he hempty with h | h | h
    · rw [hsound] at h
      cases h
    · rw [hready] at h
      cases h
    · exact h

/-- The active request is answered: what was read is the whole of its answer. -/
theorem PairedAt.read_all (hsrv : ∀ c k b, Whole phr b (srv c k b)) (hp : PairedAt phr srv head s c)
    (hr : r ∈ (s.conn c).active) (hh1 : (s.reqs r).h1 = some h) (hdel : h.delivered = true)
    (he : (s.conn c).ended = false) : (s.conn c).readBytes = answersTo srv head c (s.conn c).written := by
  obtain ⟨pre, part, h', hwr, hrd, hpart, hh1', hat⟩ := hp.busy he r (hp.active_eq hr)
  rw [hh1] at hh1'
  cases hh1'
  rw [hwr, hrd, answersTo_snoc, ((hsrv c pre.length (head r)).of_part hpart (hat.answer hdel)).1]

/-- Which requests are HEAD requests. -/
def HeadsAre (head : ReqId → Bool) (s : Pool) : Prop :=
  ∀ r, r < s.nreq → head r = decide ((s.reqs r).method = .head)

theorem HeadsAre.before (h : HeadsAre head s') (hl : Lasts s s') : HeadsAre head s := by
  intro r hr
  rw [h r (hr.trans_le hl.nreq), (hl.req r hr).method]

/-- A move that reads nothing keeps requests and answers paired. -/
theorem PairedAt.quiet_step (hc : cfg.phr.Contract) (hsrv : ∀ c k b, Whole cfg.phr b (srv c k b))
    (hp : PairedAt cfg.phr srv head w.2 c) (hh1 : (w'.2.conn c).proto = .h1) (h : Turn cfg w o w') (hb : Base w)
    (hi : Routed w) (hl : Laid l w) (hk : Books w) (hw : AllPlaced w) (hheads : HeadsAre head w.2)
    (hstray : NoStray o) (hexp : ∀ r c, .h1Expired r c ∉ o) (hread : ∀ e ∈ o, e.reads = false) :
    PairedAt cfg.phr srv head w'.2 c := by
  have hsame : ∀ r ∈ (w.2.conn c).active, (w'.2.reqs r).h1 = (w.2.reqs r).h1 :=
    fun r hr => h.h1_same hb hw hr hread
  have hch := h.change (c := c)
  generalize hpc : w'.2.conn c = pc' at hch hh1
  cases hch with
  | quiet hm => exact hp.keep hpc hm.active hm.written hm.readBytes hm.ended hm.broken (fun h => hm.state.trans h) hsame
  | born _ _ heq =>
    subst heq
    exact .of_idle hpc rfl fun _ => Or.inr (Or.inr rfl)
  | readied _ _ hstate _ _ heq =>
    subst heq
    refine hp.keep hpc rfl rfl rfl rfl id (fun hcl => ?_) hsame
    rw [hstate] at hcl
    cases hcl
  | @written r hhand hproto hcap hev heq =>
    subst heq hev
    have hlive : (w.2.conn c).state ≠ .closing := by rw [(ready_of_capacity hcap).1]; decide
    refine hp.written hc (hk.inflight c hlive) hproto hcap hpc rfl rfl rfl rfl ?_
    rcases h.shown_of_mem List.mem_cons_self rfl with ⟨-, hh3⟩ | ⟨-, hstart⟩
    · rw [hproto] at hh3
      cases hh3
    · rw [hstart hproto, hheads r (hb.hand _ hhand).1]
  | activated _ hproto _ heq | activatedH3 _ hproto _ _ _ heq =>
    subst heq
    rw [hproto] at hh1
    cases hh1
  | @taken r c₀ hact hpc' hproto _ heq =>
    cases (hw.pc_of_active hact).symm.trans hpc'
    subst heq
    rw [hproto.elim id (hl.h2 _)] at hh1
    cases hh1
  | @takenH1 r c₀ h₀ hact hpc' hproto _ hs hdel heq =>
    cases (hw.pc_of_active hact).symm.trans hpc'
    subst heq
    refine .of_idle hpc ?_ fun he => Or.inr (Or.inr (hp.read_all hsrv hact hs hdel he))
    dsimp only
    rw [hp.active_eq hact]
    exact List.erase_cons_head r []
  | @takenStray r _ hev _ _ _ => exact absurd (hev ▸ List.mem_cons_self) (hstray r)
  | @dropped r _ _ _ hev heq =>
    subst heq
    by_cases hact : r ∈ (w.2.conn c).active
    · have hbr : (w.2.conn c).broken = true := by
        rcases hev with hev | hne | hbr
        · exact absurd (hev ▸ List.mem_cons_self) (hexp r c)
        · exact absurd ((hi.on r c (Or.inl (Or.inr hact))).proto.symm.trans hh1) hne
        · exact hbr
      refine .of_idle hpc ?_ fun _ => Or.inl hbr
      dsimp only
      rw [hp.active_eq hact]
      exact List.erase_cons_head r []
    · exact hp.keep hpc (List.erase_of_not_mem hact) rfl rfl rfl id id hsame
  | @streamTaken r sid _ hfind _ _ _ heq =>
    subst heq
    have hmem : r ∈ (w.2.conn c).streams := List.mem_of_find?_eq_some hfind
    rw [(hl.h3 c (List.ne_nil_of_mem hmem)).1] at hh1
    cases hh1
  | @streamDropped r _ hproto _ heq =>
    subst heq
    have hact : r ∉ (w.2.conn c).active := by
      intro hact
      have hride := (hi.on r c (Or.inl (Or.inr hact))).proto.symm.trans hh1
      rw [hproto] at hride
      cases hride
    exact hp.keep hpc (List.erase_of_not_mem hact) rfl rfl rfl id id hsame
  | failed _ _ _ heq =>
    subst heq
    exact .of_idle hpc rfl fun _ => Or.inr (Or.inl rfl)
  | closed _ heq =>
    subst heq
    exact hp.keep hpc rfl rfl rfl rfl id (fun _ => rfl) hsame
  | ignored _ hev _ _ | fed _ hev _ _ _ _ | ended hev _ => cases hread _ (hev ▸ List.mem_cons_self)
  | reading _ _ heq | queued _ _ heq | popped _ _ heq | forgot _ heq | emptied heq | streamOpened _ _ heq =>
    subst heq
    exact hp.keep hpc rfl rfl rfl rfl id id hsame

/-! ## Reading -/

/-- After the end of the connection only what was told matters. -/
theorem PairedAt.of_ended (hpc : s'.conn c = pc) (hone : pc.active.length ≤ 1) (hend : pc.ended = true)
    (htold : ∀ r h, r ∈ pc.active → (s'.reqs r).h1 = some h → h.delivered = true →
      Answers phr srv head s' c r h.answer) : PairedAt phr srv head s' c := by
  subst hpc
  refine ⟨hone, htold, ?_, ?_⟩
  · intro he
    rw [hend] at he
    cases he
  · intro he
    rw [hend] at he
    cases he

/-- Bytes come for the active request, which are the next of its answer. -/
theorem PairedAt.fed {data : Str8} (hc : phr.Contract) (hsrv : ∀ c k b, Whole phr b (srv c k b))
    (hp : PairedAt phr srv head s c) (hopen : (s.conn c).ended = false) (hx : (s.conn c).active = [x])
    (hh1 : (s.reqs x).h1 = some h)
    (hserved : (s.conn c).readBytes ++ data <+: answersTo srv head c (s.conn c).written) :
    PairedAt phr srv head ((s.readH1 c data (h1SessionRecv phr h data).ok).updReq x
      (fun q => { q with h1 := some (h1SessionRecv phr h data).sess })) c := by
  obtain ⟨pre, part, h', hwr, hrd, -, hh1', hat⟩ := hp.busy hopen x hx
  rw [hh1] at hh1'
  cases hh1'
  have hpart : part ++ data <+: srv c pre.length (head x) := by
    rw [hwr, hrd, answersTo_snoc, List.append_assoc] at hserved
    exact (List.prefix_append_right_inj _).mp hserved
  generalize hs' : (s.readH1 c data (h1SessionRecv phr h data).ok).updReq x _ = s'
  have hconn : s'.conn c = { s.conn c with
      readBytes := (s.conn c).readBytes ++ data
      ended := (s.conn c).ended || !(h1SessionRecv phr h data).ok } := by
    rw [← hs', Pool.updReq_conn, Pool.readH1, Pool.updConn_conn, if_pos rfl]
  have hsess : (s'.reqs x).h1 = some (h1SessionRecv phr h data).sess := by
    rw [← hs', Pool.updReq_reqs, if_pos rfl]
  refine ⟨by rw [hconn]; exact hp.one, ?_, ?_, ?_⟩
  · intro r h' hr hr1 hdel
    rw [hconn] at hr
    dsimp only at hr
    rw [hx, List.mem_singleton] at hr
    subst hr
    rw [hsess] at hr1
    cases hr1
    rcases hat.next hc with ⟨-, hat'⟩ | ⟨-, hno⟩
    · refine ⟨pre.length, by rw [hconn]; dsimp only; rw [hwr, List.getElem?_concat_length], ?_⟩
      exact ((hsrv c pre.length (head r)).of_part hpart (hat'.answer hdel)).2
    · rw [hno] at hdel
      cases hdel
  · intro he r hr
    rw [hconn] at he hr
    dsimp only at he hr
    rw [hx] at hr
    cases hr
    rw [hopen, Bool.false_or, Bool.not_eq_false'] at he
    rcases hat.next hc with ⟨-, hat'⟩ | ⟨hno, -⟩
    · refine ⟨pre, part ++ data, _, by rw [hconn]; exact hwr, ?_, hpart, hsess, hat'⟩
      rw [hconn]
      dsimp only
      rw [hrd, List.append_assoc]
    · rw [hno] at he
      cases he
  · intro _ hr
    rw [hconn] at hr
    dsimp only at hr
    rw [hx] at hr
    cases hr

/-- The connection ends under the active request. -/
theorem PairedAt.eof (hp : PairedAt phr srv head s c) (hopen : (s.conn c).ended = false)
    (hx : (s.conn c).active = [x]) (hh1 : (s.reqs x).h1 = some h)
    (hserved : PoolEvent.Served phr srv head (.h1Closed c (s.conn c).written (s.conn c).readBytes)) :
    PairedAt phr srv head ((s.endH1 c).updReq x (fun q => { q with h1 := some (h1SessionEof h).sess })) c := by
  obtain ⟨pre, part, h', hwr, hrd, -, hh1', hat⟩ := hp.busy hopen x hx
  rw [hh1] at hh1'
  cases hh1'
  have hconn : ((s.endH1 c).updReq x (fun q => { q with h1 := some (h1SessionEof h).sess })).conn c =
      { s.conn c with ended := true } := by
    rw [Pool.updReq_conn, Pool.endH1, Pool.updConn_conn, if_pos rfl]
  refine .of_ended hconn hp.one rfl ?_
  intro r h' hr hr1 hdel
  dsimp only at hr
  rw [hx, List.mem_singleton] at hr
  subst hr
  rw [Pool.updReq_reqs, if_pos rfl] at hr1
  cases hr1
  have hread := hat.ended hdel
  have hall : part = srv c pre.length (head r) := hserved pre r part hwr hrd (by rw [hread]; rfl)
  exact ⟨pre.length, by rw [hconn]; dsimp only; rw [hwr, List.getElem?_concat_length], by rw [← hall, hread]⟩

/-- Bytes that come without an active request: there are none. -/
theorem PairedAt.ignored {data : Str8} (hp : PairedAt phr srv head s c)
    (hnone : (s.conn c).active.head?.bind (fun r => ((s.reqs r).h1.map (fun h => (r, h)))) = none)
    (hserved : (s.conn c).readBytes ++ data <+: answersTo srv head c (s.conn c).written) :
    PairedAt phr srv head (s.readH1 c data true) c := by
  have hconn : (s.readH1 c data true).conn c = { s.conn c with
      readBytes := (s.conn c).readBytes ++ data, ended := (s.conn c).ended || !true } := by
    rw [Pool.readH1, Pool.updConn_conn, if_pos rfl]
  cases hend : (s.conn c).ended with
  | true => exact .of_ended hconn hp.one (by rw [hend]; rfl) fun r h hr hh1 hdel =>
    (hp.told r h hr hh1 hdel).of_written (by rw [hconn])
  | false =>
    have hempty : (s.conn c).active = [] := by
      cases hact : (s.conn c).active with
      | nil => rfl
      | cons r l =>
        -- the active request has a session
        have hr := hp.active_eq (r := r) (by rw [hact]; exact List.mem_cons_self)
        obtain ⟨_, _, h, -, -, -, hh1, -⟩ := hp.busy hend r hr
        rw [hr, List.head?_cons, Option.bind_some, hh1] at hnone
        cases hnone
    refine .of_idle hconn hempty fun _ => ?_
    rcases hp.idle hend hempty with h | h | h
    · exact Or.inl h
    · exact Or.inr (Or.inl h)
    · refine Or.inr (Or.inr ?_)
      have hnil : data = [] := by
        have hlen := List.IsPrefix.length_le hserved
        rw [← h, List.length_append] at hlen
        exact List.eq_nil_of_length_eq_zero (by omega)
      dsimp only
      rw [hnil, List.append_nil, h]

/-! ## One step -/

/-- What is read from the connection `y` for its active request `x` does not touch the others. -/
theorem PairedAt.other {f : PoolReq → PoolReq} (hp : PairedAt phr srv head s c) (hw : AllPlaced (H, s)) (hne : c ≠ y)
    (hx : (s.conn y).active.head? = some x) (hconn : s'.conn c = s.conn c) (hreqs : s'.reqs = (s.updReq x f).reqs) :
    PairedAt phr srv head s' c := by
  refine hp.keep hconn rfl rfl rfl rfl id id ?_
  intro r hr
  have hrx : r ≠ x := by
    rintro rfl
    exact hne (Option.some_inj.mp ((hw.pc_of_active hr).symm.trans (hw.pc_of_active (List.mem_of_head? hx))))
  rw [hreqs, Pool.updReq_reqs, if_neg hrx]

/-- **Requests and answers stay paired.** -/
theorem PairedAt.step (hc : cfg.phr.Contract) (hsrv : ∀ c k b, Whole cfg.phr b (srv c k b))
    (hp : PairedAt cfg.phr srv head w.2 c) (hh1 : (w'.2.conn c).proto = .h1) (h : Turn cfg w o w') (hb : Base w)
    (hi : Routed w) (hl : Laid l w) (hk : Books w) (hw : AllPlaced w) (hheads : HeadsAre head w.2) (hstray : NoStray o)
    (hexp : ∀ r c, .h1Expired r c ∉ o) (hserved : ∀ e ∈ o, e.Served cfg.phr srv head) :
    PairedAt cfg.phr srv head w'.2 c := by
  cases h with
  | act h => exact hp.quiet_step hc hsrv hh1 (.act h) hb hi hl hk hw hheads hstray hexp fun _ => h.reads_nothing
  | setInRecv b hy hb' =>
    exact hp.quiet_step hc hsrv hh1 (.setInRecv b hy hb') hb hi hl hk hw hheads hstray hexp fun _ he => (by cases he)
  | @h1Ignore H s y data hy hnone =>
    rcases eq_or_ne c y with rfl | hne
    · exact hp.ignored hnone (hserved _ List.mem_cons_self)
    · refine hp.keep ?_ rfl rfl rfl rfl id id fun _ _ => rfl
      rw [Pool.readH1, Pool.updConn_conn, if_neg hne]
  | @h1Feed H s y x h data hproto hopen hhead hx =>
    rcases eq_or_ne c y with rfl | hne
    · exact hp.fed hc hsrv hopen (hp.active_eq (List.mem_of_head? hhead)) hx (hserved _ List.mem_cons_self)
    · refine hp.other (f := fun q => { q with h1 := some (h1SessionRecv cfg.phr h data).sess }) hw hne hhead ?_ rfl
      rw [Pool.updReq_conn, Pool.readH1, Pool.updConn_conn, if_neg hne]
  | @h1Closed H s y hy hproto =>
    rcases eq_or_ne c y with rfl | hne
    · have hconn : (s.endH1 c).conn c = { s.conn c with ended := true } := by
        rw [Pool.endH1, Pool.updConn_conn, if_pos rfl]
      exact .of_ended hconn hp.one rfl fun r h hr hr1 hdel =>
        (hp.told r h hr hr1 hdel).of_written (by rw [hconn])
    · refine hp.keep ?_ rfl rfl rfl rfl id id fun _ _ => rfl
      rw [Pool.endH1, Pool.updConn_conn, if_neg hne]
  | @h1Eof H s y x h hproto hopen hhead hx =>
    rcases eq_or_ne c y with rfl | hne
    · exact hp.eof hopen (hp.active_eq (List.mem_of_head? hhead)) hx (hserved _ List.mem_cons_self)
    · refine hp.other (f := fun q => { q with h1 := some (h1SessionEof h).sess }) hw hne hhead ?_ rfl
      rw [Pool.updReq_conn, Pool.endH1, Pool.updConn_conn, if_neg hne]

theorem Turn.written_prefix (h : Turn cfg w o w') (hb : Base w) :
    (w.2.conn c).written <+: (w'.2.conn c).written := by
  have hch := h.change (c := c)
  generalize w'.2.conn c = pc' at hch
  cases hch with
  | quiet hm => rw [hm.written]
  | born hc _ _ =>
    rw [hb.fresh c hc.ge]
    exact List.nil_prefix
  | written _ _ _ _ heq =>
    subst heq
    exact List.prefix_append _ _
  | _ =>
    subst_vars
    exact List.prefix_rfl

/-! ## Every run -/

/-- What HTTP/1.1 requests have been told, or are about to be told, is their own answer. -/
structure Paired (cfg : PoolCfg) (srv : Server) (head : ReqId → Bool) (l : List PoolEvent) (w : PoolWorld) : Prop where
  conn : ∀ c, (w.2.conn c).proto = .h1 → PairedAt cfg.phr srv head w.2 c
  hand : ∀ r g, .off r (some g) ∈ w.1 → (w.2.reqs r).proto = .h1 → ∃ c, Answers cfg.phr srv head w.2 c r g
  told : ∀ r resp, .callback r resp ∈ l → resp.ok = true → r < w.2.nreq ∧ ((w.2.reqs r).proto = .h1 →
    ∃ c g, Answers cfg.phr srv head w.2 c r g ∧ resp = responseDecodeEncoding cfg.decode g)

theorem Paired.empty : Paired cfg srv head [] ([], Pool.empty) :=
  ⟨fun _ _ => .of_idle rfl rfl fun _ => Or.inr (Or.inr rfl), fun _ _ h => (by cases h), fun _ _ h => (by cases h)⟩

/-- A request of HTTP/1.1 is taken off its connection with what its session read. -/
theorem Paired.hand_step (hp : Paired cfg srv head l w) (h : Turn cfg w o w') (hb : Base w) (hi : Routed w)
    (hl : Laid l w) (hstray : NoStray o) (hg : .off r (some g) ∈ w'.1) (hproto : (w'.2.reqs r).proto = .h1) :
    ∃ c, Answers cfg.phr srv head w'.2 c r g := by
  have hold : r < w.2.nreq → (w.2.reqs r).proto = .h1 := fun hr => (h.lasts.req r hr).proto ▸ hproto
  have hride : ∀ c, r ∈ (w.2.conn c).active → (w.2.conn c).proto = .h1 := by
    intro c hact
    rw [(hi.on r c (Or.inl (Or.inr hact))).proto]
    exact hold (hb.lists c r (Or.inr (Or.inl hact)))
  rcases h.comes hg with hmem | hnone | hev | ⟨c, hact, hh2⟩ | ⟨c, s, hact, hh1, hs, hdel, hans⟩ | ⟨c, hstream⟩
  · obtain ⟨c, hans⟩ := hp.hand r g hmem (hold (hb.hand _ hmem))
    exact ⟨c, hans.of_written (h.written_prefix hb)⟩
  · cases hnone
  · exact absurd hev (hstray r)
  · have hboth := hh2.elim id (hl.h2 c)
    rw [hride c hact] at hboth
    cases hboth
  · cases hans
    exact ⟨c, ((hp.conn c hh1).told r s hact hs hdel).of_written (h.written_prefix hb)⟩
  · have hh3 := hl.req c r hstream
    rw [hold (hb.lists c r (Or.inr (Or.inr hstream)))] at hh3
    cases hh3

/-- **Requests and answers stay paired**, whatever the move. -/
theorem Turn.paired (hc : cfg.phr.Contract) (hsrv : ∀ c k b, Whole cfg.phr b (srv c k b)) (h : Turn cfg w o w')
    (hb : Base w) (hi : Routed w) (hl : Laid l w) (hk : Books w) (hp : Paired cfg srv head l w)
    (hheads : HeadsAre head w.2) (hstray : NoStray (l ++ o)) (hexp : ∀ r c, .h1Expired r c ∉ o)
    (hserved : ∀ e ∈ o, e.Served cfg.phr srv head) : Paired cfg srv head (l ++ o) w' where
  conn := by
    intro c hh1
    have hpair : PairedAt cfg.phr srv head w.2 c := by
      rcases Nat.lt_or_ge c w.2.nconn with hlt | hge
      · exact hp.conn c ((h.lasts.conn c hlt).proto.symm.trans hh1)
      · exact .of_idle (hb.fresh c hge) rfl fun _ => Or.inr (Or.inr rfl)
    exact hpair.step hc hsrv hh1 h hb hi hl hk (hl.allPlaced hstray.left) hheads
      (fun r hr => hstray r (List.mem_append_right l hr)) hexp hserved
  hand := fun r g => hp.hand_step h hb hi hl fun r hr => hstray r (List.mem_append_right l hr)
  told := by
    intro r resp hmem hok
    have hlater : ∀ {c g}, Answers cfg.phr srv head w.2 c r g → Answers cfg.phr srv head w'.2 c r g :=
      fun hans => hans.of_written (h.written_prefix hb)
    rcases List.mem_append.mp hmem with hmem | hmem
    · obtain ⟨hlt, htold⟩ := hp.told r resp hmem hok
      refine ⟨hlt.trans_le h.lasts.nreq, fun hproto => ?_⟩
      obtain ⟨c, g, hans, heq⟩ := htold ((h.lasts.req r hlt).proto ▸ hproto)
      exact ⟨c, g, hlater hans, heq⟩
    · rcases h.shown_of_mem hmem rfl with hno | ⟨g, hoff, heq⟩
      · rw [hno] at hok
        cases hok
      · have hlt : r < w.2.nreq := hb.hand _ hoff
        refine ⟨hlt.trans_le h.lasts.nreq, fun hproto => ?_⟩
        obtain ⟨c, hans⟩ := hp.hand r g hoff ((h.lasts.req r hlt).proto ▸ hproto)
        exact ⟨c, g, hlater hans, heq⟩

/-- The server answers in order, and no deadline frees a slot of an HTTP/1.1 connection that is still usable. -/
structure InOrder (cfg : PoolCfg) (srv : Server) (head : ReqId → Bool) (l : List PoolEvent) : Prop where
  stray : NoStray l
  expired : ∀ r c, .h1Expired r c ∉ l
  served : ∀ e ∈ l, e.Served cfg.phr srv head

theorem Turns.paired (hc : cfg.phr.Contract) (hsrv : ∀ c k b, Whole cfg.phr b (srv c k b))
    (h : Turns cfg ([], .empty) l w) (hok : InOrder cfg srv head l) (hheads : HeadsAre head w.2) :
    Paired cfg srv head l w := by
  have hI := Turns.invariant (InOrder cfg srv head)
    (I := fun l w => (Routed w ∧ Laid l w ∧ Books w) ∧ (HeadsAre head w.2 → Paired cfg srv head l w)) ?_ ?_ h .empty []
    ⟨⟨.empty, .empty, .empty⟩, fun _ => .empty⟩ hok
  · exact hI.2 hheads
  · rintro l l' ⟨hstray, hexp, hserved⟩
    exact ⟨hstray.left, fun r c hm => hexp r c (List.mem_append_left l' hm),
      fun e hm => hserved e (List.mem_append_left l' hm)⟩
  · rintro l w o w' hb ⟨⟨hi, hl, hk⟩, hp⟩ hm ⟨hstray, hexp, hserved⟩
    refine ⟨⟨hm.routed hb hi, hm.laid hb hi hl, hm.books hb hi hl hk hstray⟩, fun hheads => ?_⟩
    have hheads' := hheads.before hm.lasts
    exact hm.paired hc hsrv hb hi hl hk (hp hheads') hheads' hstray
      (fun r c hx => hexp r c (List.mem_append_right l hx))
      (fun e hx => hserved e (List.mem_append_right l hx))

/-- Which requests are HEAD requests, at the end of a run. -/
def Pool.isHead (s : Pool) (r : ReqId) : Bool := (s.reqs r).method = .head

/-- **A response is the answer to its own request**, in every run over HTTP/1.1 connections against a server
    that answers in order, in which no deadline passes for a request that is active on a usable connection. -/
theorem pool_pairs_answers {w : PoolRun} (hphr : cfg.phr.Contract) (hsrv : ∀ c k b, Whole cfg.phr b (srv c k b))
    (h : PoolReach cfg w) (hh1 : ∀ r, r < w.pool.nreq → (w.pool.reqs r).proto = .h1)
    (hserved : ∀ e ∈ w.log, e.Served cfg.phr srv w.pool.isHead) (hexpired : ∀ r c, .h1Expired r c ∉ w.log) :
    ∀ r resp, .callback r resp ∈ w.log → resp.ok = true →
      ∃ c k g, (w.pool.conn c).written[k]? = some r ∧
        h1Reading cfg.phr (w.pool.isHead r) (srv c k (w.pool.isHead r)) = some g ∧
        resp = responseDecodeEncoding cfg.decode g := by
  intro r resp hmem hok
  obtain ⟨ht, -⟩ := h.turns
  have hlaid := (Turns.laid ht .empty .empty .empty).2
  have hstray : NoStray w.log := by
    intro r hr
    obtain ⟨hlt, hh2⟩ := hlaid.stray r hr
    rw [hh1 r hlt] at hh2
    cases hh2
  obtain ⟨hlt, htold⟩ := (Turns.paired hphr hsrv ht ⟨hstray, hexpired, hserved⟩ fun _ _ => rfl).told r resp hmem hok
  obtain ⟨c, g, ⟨k, hk, hread⟩, heq⟩ := htold (hh1 r hlt)
  exact ⟨c, k, g, hk, hread, heq⟩

end

/-- A response with a body of one byte. -/
def pageText (body : Str8) (isHead : Bool) : Str8 :=
  lit "HTTP/1.1 200 OK\r\nContent-Length: 1\r\n\r\n" ++ if isHead then [] else body

/-- `a` for the first request on a connection, `b` for the others. -/
def twoPages : Server := fun _ k isHead => pageText (if k = 0 then lit "a" else lit "b") isHead

theorem twoPages_whole : ∀ c k b, Whole plainPhr b (twoPages c k b) := by
  intro c k b
  have hall : ∀ body ∈ [lit "a", lit "b"], ∀ b, (h1Outcome plainPhr b (pageText body b) true).resp.isSome = true ∧
      ∀ p ∈ (pageText body b).inits, (h1Outcome plainPhr b p false).resp.isSome = true → p = pageText body b := by
    decide +kernel
  have hbody : (if k = 0 then lit "a" else lit "b") ∈ [lit "a", lit "b"] := by
    split
    · exact List.mem_cons_self
    · exact List.mem_cons_of_mem _ List.mem_cons_self
  obtain ⟨hcomplete, hexact⟩ := hall _ hbody b
  exact ⟨hcomplete, fun p hp => hexact p ((List.mem_inits p _).mpr hp)⟩

/-- The page as the pool reports it. -/
def pageResponse (body : Str8) : Response :=
  { ok := true, status := 200, headers := [{ name := lit "Content-Length", value := lit "1" }], body := body }

/-- Two requests on one connection, each answered before the next is written. -/
def keepAliveRun : List PoolTurn :=
  [⟨.call (.dispatch .h1 .get (lit "https://a/") false), 5, [.connect none]⟩,
   ⟨.h1Ready 0 (.ok []), 5, [.h1Alloc true]⟩,
   ⟨.h1Readable 0 [pageText (lit "a") false], 5, [.calls []]⟩,
   ⟨.call (.dispatch .h1 .get (lit "https://a/b") false), 5, [.h1Alloc true]⟩,
   ⟨.h1Readable 0 [pageText (lit "b") false], 5, [.calls []]⟩]

theorem pool_pairs_answers_keep_alive :
    ∃ w, PoolReach plainCfg w ∧ (w.pool.conn 0).written = [0, 1] ∧ .callback 1 (pageResponse (lit "b")) ∈ w.log ∧
      ∃ c k g, (w.pool.conn c).written[k]? = some 1 ∧
        h1Reading plainPhr (w.pool.isHead 1) (twoPages c k (w.pool.isHead 1)) = some g ∧
        pageResponse (lit "b") = responseDecodeEncoding plainCfg.decode g := by
  have hrun : (poolPlay plainCfg keepAliveRun).map (fun w => (w.pool.nreq, (w.pool.conn 0).written,
      (w.pool.reqs 0).proto, (w.pool.reqs 1).proto, w.pool.isHead 0, w.pool.isHead 1)) =
      some (2, [0, 1], .h1, .h1, false, false) := by decide +kernel
  have hlog : (poolPlay plainCfg keepAliveRun).map (·.log) = some [.dispatched 0, .opened 0 0, .write 0 0,
      .h1Read 0 [0] [] (pageText (lit "a") false), .callback 0 (pageResponse (lit "a")), .released 0,
      .dispatched 1, .write 1 0, .h1Read 0 [0, 1] (pageText (lit "a") false) (pageText (lit "b") false),
      .callback 1 (pageResponse (lit "b")), .released 1] := by decide +kernel
  obtain ⟨w, hplay, hw⟩ := Option.map_eq_some_iff.mp hrun
  rw [hplay] at hlog
  simp only [Prod.mk.injEq, Option.map_some, Option.some.injEq] at hw hlog
  obtain ⟨hn, hwritten, hp₀, hp₁, hh₀, hh₁⟩ := hw
  have hreach := PoolReach.of_play hplay
  have hmem : .callback 1 (pageResponse (lit "b")) ∈ w.log := by
    rw [hlog]
    decide +kernel
  refine ⟨w, hreach, hwritten, hmem, pool_pairs_answers plainPhr_contract twoPages_whole hreach ?_ ?_ ?_ 1 _ hmem rfl⟩
  · intro r hr
    rw [hn] at hr
    match r, hr with
    | 0, _ => exact hp₀
    | 1, _ => exact hp₁
  · have hall : answersTo twoPages w.pool.isHead 0 [0, 1] = pageText (lit "a") false ++ pageText (lit "b") false ∧
        answersTo twoPages w.pool.isHead 0 [0] = pageText (lit "a") false := by
      simp [answersTo, twoPages, hh₀, hh₁]
    rw [hlog]
    simp [PoolEvent.Served, hall.1, hall.2]
  · intro r c
    rw [hlog]
    simp

/-- The deadline of the first request passes; its answer comes when the second one has been written. -/
def lateAnswerRun : List PoolTurn :=
  [⟨.call (.dispatch .h1 .get (lit "https://a/") true), 5, [.connect none]⟩,
   ⟨.h1Ready 0 (.ok []), 5, [.h1Alloc true]⟩,
   ⟨.timeout 0, 5, [.calls []]⟩,
   ⟨.call (.dispatch .h1 .get (lit "https://a/b") false), 5, [.h1Alloc true]⟩,
   ⟨.h1Readable 0 [pageText (lit "a") false], 5, [.calls []]⟩]

theorem late_answer_misdelivered :
    ∃ w, PoolReach plainCfg w ∧ (∀ r, r < w.pool.nreq → (w.pool.reqs r).proto = .h1) ∧
      (∀ e ∈ w.log, e.Served plainPhr twoPages w.pool.isHead) ∧ .callback 1 (pageResponse (lit "a")) ∈ w.log ∧
      ¬ ∃ c k g, (w.pool.conn c).written[k]? = some 1 ∧
        h1Reading plainPhr (w.pool.isHead 1) (twoPages c k (w.pool.isHead 1)) = some g ∧
        pageResponse (lit "a") = responseDecodeEncoding plainCfg.decode g := by
  have hrun : (poolPlay plainCfg lateAnswerRun).map (fun w => (w.pool.nreq, (w.pool.conn 0).written,
      (w.pool.reqs 0).proto, (w.pool.reqs 1).proto, w.pool.isHead 0, w.pool.isHead 1)) =
      some (2, [0, 1], .h1, .h1, false, false) := by decide +kernel
  have hnc : (poolPlay plainCfg lateAnswerRun).map (·.pool.nconn) = some 1 := by decide +kernel
  have hlog : (poolPlay plainCfg lateAnswerRun).map (·.log) = some [.dispatched 0, .opened 0 0, .write 0 0,
      .callback 0 { ok := false, error := lit "timeout" }, .h1Expired 0 0, .released 0, .dispatched 1, .write 1 0,
      .h1Read 0 [0, 1] [] (pageText (lit "a") false), .callback 1 (pageResponse (lit "a")), .released 1] := by
    decide +kernel
  have hpage : (h1Reading plainPhr false (pageText (lit "b") false)).map (responseDecodeEncoding plainCfg.decode) =
      some (pageResponse (lit "b")) := by decide +kernel
  obtain ⟨w, hplay, hw⟩ := Option.map_eq_some_iff.mp hrun
  rw [hplay] at hlog hnc
  simp only [Prod.mk.injEq, Option.map_some, Option.some.injEq] at hw hlog hnc
  obtain ⟨hn, hwritten, hp₀, hp₁, hh₀, hh₁⟩ := hw
  have hreach := PoolReach.of_play hplay
  refine ⟨w, hreach, ?_, ?_, ?_, ?_⟩
  · intro r hr
    rw [hn] at hr
    match r, hr with
    | 0, _ => exact hp₀
    | 1, _ => exact hp₁
  · have hall : answersTo twoPages w.pool.isHead 0 [0, 1] = pageText (lit "a") false ++ pageText (lit "b") false := by
      simp [answersTo, twoPages, hh₀, hh₁]
    rw [hlog]
    simp [PoolEvent.Served, hall]
  · rw [hlog]
    decide +kernel
  · rintro ⟨c, k, g, hk, hread, heq⟩
    -- the second request was written once, as the second on the only connection
    have hc : c = 0 := by
      by_contra hne
      have hge : w.pool.nconn ≤ c := by
        rw [hnc]
        exact Nat.one_le_iff_ne_zero.mpr hne
      rw [(Turns.base hreach.turns.1 .empty).fresh c hge] at hk
      cases hk
    subst hc
    rw [hwritten] at hk
    match k, hk with
    | 1, _ =>
      rw [hh₁] at hread
      have hpage' : h1Reading plainPhr false (pageText (lit "b") false) = some g := hread
      rw [hpage', Option.map_some, ← heq, Option.some.injEq] at hpage
      exact absurd hpage (by decide +kernel)

end HolyTls
