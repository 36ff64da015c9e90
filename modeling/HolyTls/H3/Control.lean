import HolyTls.H3.Varint

/-!
# `H3.Control` — the control stream and its fingerprint text (`src/h3/h3_control.c`)

`build_h3_control_stream` writes the SETTINGS of a profile, a GREASE frame and a PRIORITY_UPDATE as frames of
varints; `h3_text` walks such a stream and prints what it finds. The stream is a list of frames
(`buildH3ControlStream_eq`), and the walk takes one frame a turn (`h3FramesLoop_frame`), so the text is the
one that the profile itself gives (`h3_text_of_control_stream`).

A setting whose id is reserved is printed as GREASE wherever it comes from.
-/

namespace HolyTls

/-- `H3Setting`. -/
structure H3Setting where
  id : Nat
  value : Nat
deriving DecidableEq, Repr

/-- The fields of an `Http3Profile` that the control stream uses. The settings are counted by a `U8`. -/
structure Http3ControlProfile extends Http3Profile where
  settings : List H3Setting
  settingsGrease : Bool
  sendGreaseFrame : Bool
  sendPriorityUpdate : Bool
  settings_le : settings.length ≤ 255

/-- `h3_is_reserved`. -/
def h3IsReserved (v : Nat) : Bool := v ≥ 0x21 && (v - 0x21) % 0x1f == 0

/-- `pseudo_char`. -/
def pseudoChar : PseudoId → UInt8
  | .method => 109
  | .authority => 97
  | .scheme => 115
  | .path => 112

def h3FrameSettings : Nat := 0x04
def h3FramePriorityUpdate : Nat := 0xf0700
def h3GreaseSetting : Nat := 0x1f * 7 + 0x21
def h3GreaseFrame : Nat := 0x1f * 11 + 0x21

/-! ## Writing -/

/-- `build_h3_priority_update`; the stream id is cast to `U64`. -/
def buildH3PriorityUpdate (prioritizedStreamId : Int) : Str8 :=
  let pu := quicVarintPut (prioritizedStreamId % 2 ^ 64).toNat ++ lit "u=1, i"
  quicVarintPut h3FramePriorityUpdate ++ quicVarintPut pu.length ++ pu

/-- The body of the SETTINGS frame. -/
def h3SettingsBody (p : Http3ControlProfile) : Str8 :=
  p.settings.flatMap (fun s => quicVarintPut s.id ++ quicVarintPut s.value) ++
    if p.settingsGrease then quicVarintPut h3GreaseSetting ++ quicVarintPut 0x00 else []

/-- `build_h3_control_stream`. -/
def buildH3ControlStream (p : Http3ControlProfile) (prioritizedStreamId : Int) : Str8 :=
  let body := h3SettingsBody p
  quicVarintPut 0x00 ++ (quicVarintPut h3FrameSettings ++ quicVarintPut body.length ++ body) ++
    (if p.sendGreaseFrame then quicVarintPut h3GreaseFrame ++ quicVarintPut 0x00 else []) ++
    (if p.sendPriorityUpdate then buildH3PriorityUpdate prioritizedStreamId else [])

/-! ## Reading -/

/-- How one setting is printed. -/
def h3SettingText (id val : Nat) : Str8 :=
  if h3IsReserved id then lit "GREASE" else decimal id ++ lit ":" ++ decimal val

/-- The loop over a SETTINGS payload; each turn takes at least two bytes. -/
def h3SettingsLoop : Nat → Str8 → List Str8
  | 0, _ => []
  | fuel + 1, payload =>
    if payload = [] then []
    else
      let id := quicVarintGet payload
      if id.2 = 0 then []
      else
        let val := quicVarintGet (payload.drop id.2)
        if val.2 = 0 then []
        else h3SettingText id.1 val.1 :: h3SettingsLoop fuel ((payload.drop id.2).drop val.2)

/-- What is printed for a frame. -/
def h3FrameText (fill : Nat → UInt8) (type : Nat) (payload : Str8) : Str8 :=
  if type = h3FrameSettings then str8ListJoin fill (h3SettingsLoop payload.length payload) (lit ";")
  else if h3IsReserved type then lit "GREASE"
  else decimal type

/-- The loop over the frames; `rest` is what follows `off`. A payload is cut at the end of the stream. -/
def h3FramesLoop (fill : Nat → UInt8) : Nat → Str8 → List Str8
  | 0, _ => []
  | fuel + 1, rest =>
    if rest = [] then []
    else
      let type := quicVarintGet rest
      if type.2 = 0 then []
      else
        let flen := quicVarintGet (rest.drop type.2)
        if flen.2 = 0 then []
        else
          let payload := (rest.drop type.2).drop flen.2
          h3FrameText fill type.1 (payload.take flen.1) :: h3FramesLoop fill fuel (payload.drop flen.1)

/-- `h3_text`. -/
def h3Text (fill : Nat → UInt8) (control : Str8) (p : Http3ControlProfile) : Str8 :=
  let rest := control.drop (quicVarintGet control).2
  let framesText := str8ListJoin fill (h3FramesLoop fill rest.length rest) (lit "|")
  let pseudoText := str8ListJoin fill (p.pseudoOrder.map (fun id => [pseudoChar id])) (lit ",")
  fmtS framesText ++ lit "|" ++ fmtS pseudoText

/-! ## The text of a profile -/

/-- The settings of a profile, the GREASE one included. -/
def Http3ControlProfile.allSettings (p : Http3ControlProfile) : List H3Setting :=
  p.settings ++ if p.settingsGrease then [⟨h3GreaseSetting, 0⟩] else []

/-- The settings as `id:value` or `GREASE`, joined by `;`. -/
def Http3ControlProfile.settingsText (p : Http3ControlProfile) : Str8 :=
  (lit ";").intercalate (p.allSettings.map (fun s => h3SettingText s.id s.value))

/-- The text of a profile: the settings, the GREASE frame and the priority update, joined by `|`, and then the
    letters of the pseudo-headers. -/
def Http3ControlProfile.text (p : Http3ControlProfile) : Str8 :=
  (lit "|").intercalate
    ([p.settingsText] ++ (if p.sendGreaseFrame then [lit "GREASE"] else []) ++
      (if p.sendPriorityUpdate then [lit "984832"] else [])) ++
    lit "|" ++ (lit ",").intercalate (p.pseudoOrder.map (fun id => [pseudoChar id]))

/-! ## The stream is a list of frames -/

/-- A frame on the wire. -/
def h3Frame (f : Nat × Str8) : Str8 := quicVarintPut f.1 ++ quicVarintPut f.2.length ++ f.2

/-- The frames of a profile's control stream. -/
def Http3ControlProfile.frames (p : Http3ControlProfile) (streamId : Int) : List (Nat × Str8) :=
  [(h3FrameSettings, h3SettingsBody p)] ++ (if p.sendGreaseFrame then [(h3GreaseFrame, [])] else []) ++
    (if p.sendPriorityUpdate then
      [(h3FramePriorityUpdate, quicVarintPut (streamId % 2 ^ 64).toNat ++ lit "u=1, i")] else [])

theorem buildH3ControlStream_eq (p : Http3ControlProfile) (streamId : Int) :
    buildH3ControlStream p streamId = quicVarintPut 0x00 ++ (p.frames streamId).flatMap h3Frame := by
  unfold buildH3ControlStream Http3ControlProfile.frames buildH3PriorityUpdate
  cases p.sendGreaseFrame <;> cases p.sendPriorityUpdate <;> simp [h3Frame]

theorem h3SettingsBody_eq (p : Http3ControlProfile) :
    h3SettingsBody p = p.allSettings.flatMap (fun s => quicVarintPut s.id ++ quicVarintPut s.value) := by
  unfold h3SettingsBody Http3ControlProfile.allSettings
  cases p.settingsGrease <;> simp

theorem quicVarintPut_ne_nil (v : Nat) : quicVarintPut v ≠ [] := by
  rw [quicVarintPut_eq]
  exact List.cons_ne_nil _ _

theorem quicVarintPut_length_pos (v : Nat) : (quicVarintPut v).length ≠ 0 := by
  rw [Ne, List.length_eq_zero_iff]
  exact quicVarintPut_ne_nil v

theorem quicVarintPut_length_le (v : Nat) : (quicVarintPut v).length ≤ 8 := by
  rw [quicVarintPut_length]
  exact Nat.pow_le_pow_right (by decide) (Nat.le_of_lt_succ (varintClass_lt v))

/-! ## The walk takes one frame a turn -/

section

variable {fill : Nat → UInt8} {fuel : Nat} {rest : Str8}

theorem h3SettingsLoop_setting {id val : Nat} (hid : id < 2 ^ 62) (hval : val < 2 ^ 62) :
    h3SettingsLoop (fuel + 1) (quicVarintPut id ++ quicVarintPut val ++ rest) =
      h3SettingText id val :: h3SettingsLoop fuel rest := by
  have hne : quicVarintPut id ++ (quicVarintPut val ++ rest) ≠ [] := by simp [quicVarintPut_ne_nil]
  rw [List.append_assoc, h3SettingsLoop, if_neg hne]
  simp only [quicVarintGet_put hid, List.drop_left, quicVarintGet_put hval, quicVarintPut_length_pos, if_false]

/-- The text of the settings is read back, setting by setting. -/
theorem h3SettingsLoop_settings {settings : List H3Setting} (h : ∀ s ∈ settings, s.id < 2 ^ 62 ∧ s.value < 2 ^ 62)
    (hfuel : settings.length ≤ fuel) :
    h3SettingsLoop fuel (settings.flatMap (fun s => quicVarintPut s.id ++ quicVarintPut s.value)) =
      settings.map (fun s => h3SettingText s.id s.value) := by
  induction settings generalizing fuel with
  | nil => cases fuel <;> rfl
  | cons s settings ih =>
    obtain ⟨fuel, rfl⟩ : ∃ k, fuel = k + 1 := Nat.exists_eq_add_one_of_ne_zero (by
      rw [List.length_cons] at hfuel
      omega)
    obtain ⟨hid, hval⟩ := h s List.mem_cons_self
    rw [List.flatMap_cons, h3SettingsLoop_setting hid hval,
      ih (fun t ht => h t (List.mem_cons_of_mem s ht)) (by simpa using hfuel), List.map_cons]

theorem h3FramesLoop_frame {f : Nat × Str8} (htype : f.1 < 2 ^ 62) (hlen : f.2.length < 2 ^ 62) :
    h3FramesLoop fill (fuel + 1) (h3Frame f ++ rest) = h3FrameText fill f.1 f.2 :: h3FramesLoop fill fuel rest := by
  have hne : quicVarintPut f.1 ++ (quicVarintPut f.2.length ++ (f.2 ++ rest)) ≠ [] := by simp [quicVarintPut_ne_nil]
  rw [h3Frame, List.append_assoc, List.append_assoc, h3FramesLoop, if_neg hne]
  simp only [quicVarintGet_put htype, List.drop_left, quicVarintGet_put hlen, quicVarintPut_length_pos, if_false,
    List.take_left]

/-- So is the text of the frames. -/
theorem h3FramesLoop_frames {frames : List (Nat × Str8)} (h : ∀ f ∈ frames, f.1 < 2 ^ 62 ∧ f.2.length < 2 ^ 62)
    (hfuel : frames.length ≤ fuel) :
    h3FramesLoop fill fuel (frames.flatMap h3Frame) = frames.map (fun f => h3FrameText fill f.1 f.2) := by
  induction frames generalizing fuel with
  | nil => cases fuel <;> rfl
  | cons f frames ih =>
    obtain ⟨fuel, rfl⟩ : ∃ k, fuel = k + 1 := Nat.exists_eq_add_one_of_ne_zero (by
      rw [List.length_cons] at hfuel
      omega)
    obtain ⟨htype, hlen⟩ := h f List.mem_cons_self
    rw [List.flatMap_cons, h3FramesLoop_frame htype hlen,
      ih (fun g hg => h g (List.mem_cons_of_mem f hg)) (by simpa using hfuel), List.map_cons]

end

/-- As many turns as there are bytes are enough when every piece has one. -/
theorem length_le_flatMap {α : Type} {f : α → Str8} (hf : ∀ a, f a ≠ []) (l : List α) :
    l.length ≤ (l.flatMap f).length := by
  induction l with
  | nil => exact Nat.le_refl 0
  | cons a l ih =>
    have hpos := List.length_pos_of_ne_nil (hf a)
    rw [List.flatMap_cons, List.length_append, List.length_cons]
    omega

theorem h3Frame_ne_nil (f : Nat × Str8) : h3Frame f ≠ [] := by simp [h3Frame, quicVarintPut_ne_nil]

/-! ## The text of the stream -/

section

variable {fill : Nat → UInt8} {p : Http3ControlProfile}

/-- Ids and values that fit a varint. -/
def Http3ControlProfile.Encodable (p : Http3ControlProfile) : Prop :=
  ∀ s ∈ p.settings, s.id < 2 ^ 62 ∧ s.value < 2 ^ 62

theorem Http3ControlProfile.Encodable.all (h : p.Encodable) :
    ∀ s ∈ p.allSettings, s.id < 2 ^ 62 ∧ s.value < 2 ^ 62 := by
  intro s hs
  unfold Http3ControlProfile.allSettings at hs
  rcases List.mem_append.mp hs with hs | hs
  · exact h s hs
  · split at hs
    · rw [List.mem_singleton.mp hs]
      decide
    · cases hs

theorem h3SettingText_ne_nil (id val : Nat) : h3SettingText id val ≠ [] := by
  unfold h3SettingText
  split
  · decide
  · simp [lit]

theorem h3SettingText_bytes {id val : Nat} : ∀ b ∈ h3SettingText id val, b ≠ 0 := by
  intro b hb
  have hdigit : ∀ n, b ∈ decimal n → b ≠ 0 := by
    rintro n hn rfl
    cases charIsDigit_of_mem_decimal hn
  unfold h3SettingText at hb
  split at hb
  · rintro rfl
    exact absurd hb (by decide)
  · rcases List.mem_append.mp hb with hb | hb
    · rcases List.mem_append.mp hb with hb | hb
      · exact hdigit id hb
      · rintro rfl
        exact absurd hb (by decide)
    · exact hdigit val hb

theorem settingsText_ne_nil (hsome : p.settings ≠ [] ∨ p.settingsGrease = true) : p.settingsText ≠ [] := by
  have hne : p.allSettings ≠ [] := by
    unfold Http3ControlProfile.allSettings
    rcases hsome with hs | hg
    · simp [hs]
    · simp [hg]
  obtain ⟨s, rest, hall⟩ := List.exists_cons_of_ne_nil hne
  rw [Http3ControlProfile.settingsText, hall, List.map_cons, intercalate_cons]
  simp [h3SettingText_ne_nil]

theorem h3FrameText_settings (h : p.Encodable) :
    h3FrameText fill h3FrameSettings (h3SettingsBody p) = p.settingsText := by
  have hpiece : ∀ s : H3Setting, quicVarintPut s.id ++ quicVarintPut s.value ≠ [] := by
    intro s
    simp [quicVarintPut_ne_nil]
  have hloop := h3SettingsLoop_settings h.all (length_le_flatMap hpiece p.allSettings)
  have hhead : (p.allSettings.map (fun s => h3SettingText s.id s.value)).head? ≠ some [] := by
    cases p.allSettings with
    | nil => simp
    | cons s rest => simpa using h3SettingText_ne_nil s.id s.value
  rw [h3FrameText, if_pos rfl, h3SettingsBody_eq, hloop, str8ListJoin_eq fill (lit ";") hhead]
  rfl

theorem h3SettingsBody_length (p : Http3ControlProfile) : (h3SettingsBody p).length < 2 ^ 62 := by
  have hpiece : ∀ l : List H3Setting,
      (l.flatMap (fun s => quicVarintPut s.id ++ quicVarintPut s.value)).length ≤ 16 * l.length := by
    intro l
    induction l with
    | nil => exact Nat.le_refl 0
    | cons s l ih =>
      have hid := quicVarintPut_length_le s.id
      have hval := quicVarintPut_length_le s.value
      rw [List.flatMap_cons, List.length_append, List.length_append, List.length_cons]
      omega
  have hall : p.allSettings.length ≤ 256 := by
    have hle := p.settings_le
    unfold Http3ControlProfile.allSettings
    rw [List.length_append]
    split <;> simp <;> omega
  have hlen := hpiece p.allSettings
  rw [h3SettingsBody_eq]
  omega

/-- Every type and length fits a varint. -/
theorem frames_encodable (streamId : Int) : ∀ f ∈ p.frames streamId, f.1 < 2 ^ 62 ∧ f.2.length < 2 ^ 62 := by
  have hpu := quicVarintPut_length_le (streamId % 2 ^ 64).toNat
  have htext : (lit "u=1, i").length = 6 := rfl
  intro f hf
  simp only [Http3ControlProfile.frames, List.mem_append, List.mem_singleton] at hf
  rcases hf with (rfl | hf) | hf
  · exact ⟨(by decide : h3FrameSettings < 2 ^ 62), h3SettingsBody_length p⟩
  · split at hf
    · rw [List.mem_singleton.mp hf]
      decide
    · cases hf
  · split at hf
    · rw [List.mem_singleton.mp hf]
      refine ⟨(by decide : h3FramePriorityUpdate < 2 ^ 62), ?_⟩
      rw [List.length_append, htext]
      omega
    · cases hf

theorem frames_text (h : p.Encodable) (streamId : Int) :
    (p.frames streamId).map (fun f => h3FrameText fill f.1 f.2) =
      [p.settingsText] ++ (if p.sendGreaseFrame then [lit "GREASE"] else []) ++
        (if p.sendPriorityUpdate then [lit "984832"] else []) := by
  have hgrease : h3FrameText fill h3GreaseFrame [] = lit "GREASE" := rfl
  have hpriority : ∀ s, h3FrameText fill h3FramePriorityUpdate s = lit "984832" := fun _ => rfl
  unfold Http3ControlProfile.frames
  rw [List.map_append, List.map_append, List.map_singleton, h3FrameText_settings h]
  cases p.sendGreaseFrame <;> cases p.sendPriorityUpdate <;> simp [hgrease, hpriority]

theorem settingsText_bytes : ∀ b ∈ p.settingsText, b ≠ 0 := by
  intro b hb
  rcases mem_intercalate hb with hb | ⟨s, hs, hb⟩
  · rintro rfl
    exact absurd hb (by decide)
  · obtain ⟨t, -, rfl⟩ := List.mem_map.mp hs
    exact h3SettingText_bytes b hb

theorem framesText_bytes : ∀ b ∈ (lit "|").intercalate ([p.settingsText] ++
    (if p.sendGreaseFrame then [lit "GREASE"] else []) ++ (if p.sendPriorityUpdate then [lit "984832"] else [])),
    b ≠ 0 := by
  intro b hb
  rcases mem_intercalate hb with hb | ⟨s, hs, hb⟩
  · rintro rfl
    exact absurd hb (by decide)
  · simp only [List.mem_append, List.mem_singleton] at hs
    rcases hs with (rfl | hs) | hs
    · exact settingsText_bytes b hb
    all_goals
      split at hs
      · rw [List.mem_singleton.mp hs] at hb
        rintro rfl
        exact absurd hb (by decide)
      · cases hs

theorem pseudoText_bytes (order : List PseudoId) :
    ∀ b ∈ (lit ",").intercalate (order.map (fun id => [pseudoChar id])), b ≠ 0 := by
  intro b hb
  rcases mem_intercalate hb with hb | ⟨s, hs, hb⟩
  · rintro rfl
    exact absurd hb (by decide)
  · obtain ⟨id, -, rfl⟩ := List.mem_map.mp hs
    rw [List.mem_singleton.mp hb]
    cases id <;> decide

/-- **The text of a control stream is that of its profile.** -/
theorem h3Text_eq (fill : Nat → UInt8) (h : p.Encodable) (hsome : p.settings ≠ [] ∨ p.settingsGrease = true)
    (streamId : Int) : h3Text fill (buildH3ControlStream p streamId) p = p.text := by
  have hrest : (buildH3ControlStream p streamId).drop (quicVarintGet (buildH3ControlStream p streamId)).2
      = (p.frames streamId).flatMap h3Frame := by
    rw [buildH3ControlStream_eq, quicVarintGet_put (by decide), List.drop_left]
  have hloop : h3FramesLoop fill ((p.frames streamId).flatMap h3Frame).length ((p.frames streamId).flatMap h3Frame)
      = _ := h3FramesLoop_frames (frames_encodable streamId) (length_le_flatMap h3Frame_ne_nil _)
  rw [frames_text h] at hloop
  have hhead : ([p.settingsText] ++ (if p.sendGreaseFrame then [lit "GREASE"] else []) ++
      (if p.sendPriorityUpdate then [lit "984832"] else [])).head? ≠ some [] := by
    simpa using settingsText_ne_nil hsome
  have hpseudo : (p.pseudoOrder.map (fun id => [pseudoChar id])).head? ≠ some [] := by
    cases p.pseudoOrder <;> simp
  simp only [h3Text, hrest, hloop, str8ListJoin_eq fill (lit "|") hhead, str8ListJoin_eq fill (lit ",") hpseudo,
    fmtS_eq_self framesText_bytes, fmtS_eq_self (pseudoText_bytes p.pseudoOrder)]
  rfl

end

/-- **The control stream encodes its profile.** A varint is read back with its length, the least possible one,
    whatever follows it; and the text that `h3_text` finds in a control stream is the text of the profile. -/
theorem h3_text_of_control_stream :
    (∀ (v : Nat) (rest : Str8), v < 2 ^ 62 →
      quicVarintGet (quicVarintPut v ++ rest) = (v, (quicVarintPut v).length) ∧
        ∀ s n, quicVarintGet s = (v, n) → n ≠ 0 → (quicVarintPut v).length ≤ n) ∧
    ∀ (fill : Nat → UInt8) (p : Http3ControlProfile) (streamId : Int), p.Encodable →
      (p.settings ≠ [] ∨ p.settingsGrease = true) → 0 ≤ streamId → streamId < 2 ^ 62 →
      h3Text fill (buildH3ControlStream p streamId) p = p.text := by
  refine ⟨fun v rest hv => ⟨quicVarintGet_put hv rest, fun s n h hn => quicVarintPut_minimal h hn⟩, ?_⟩
  intro fill p streamId hp hsome _ _
  exact h3Text_eq fill hp hsome streamId

/-- The profile of Chrome. -/
def chromeControlProfile : Http3ControlProfile where
  toHttp3Profile := chromeH3Profile
  settings := [⟨1, 65536⟩, ⟨6, 262144⟩, ⟨7, 100⟩, ⟨51, 1⟩]
  settingsGrease := true
  sendGreaseFrame := true
  sendPriorityUpdate := true
  settings_le := by decide

theorem h3_text_chrome :
    h3Text (fun _ => 0) (buildH3ControlStream chromeControlProfile 0) chromeControlProfile =
      lit "1:65536;6:262144;7:100;51:1;GREASE|GREASE|984832|m,a,s,p" := by
  rw [h3_text_of_control_stream.2 (fun _ => 0) chromeControlProfile 0 (by unfold Http3ControlProfile.Encodable; decide)
    (.inl (by decide)) (by decide) (by decide)]
  decide +kernel

end HolyTls
