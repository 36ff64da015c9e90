import HolyTls.Core.Header

/-!
# `H1.Request` — the request an HTTP/1.1 session writes (`src/h1/h1.c`)

`h1_session_submit_request` writes the request line, its own Host header, the caller's headers and the body
into one buffer. A reader of the other side is given here too (`h1ReadHead`): it takes lines up to the first
empty one and knows nothing of how they were written. It gets back the lines that were written whenever none
of them holds a CR or LF (`h1ReadHead_submitted`).
-/

namespace HolyTls

/-! ## The writer -/

/-- The caller's headers that are written: its Host and Connection are dropped. -/
def h1KeptHeaders (headers : HeaderList) : HeaderList :=
  headers.filter (fun h => !(str8MatchCi h.name (lit "host") || str8MatchCi h.name (lit "connection")))

/-- A header as it stands on its line. -/
def h1HeaderLine (h : Header) : Str8 := h.name ++ lit ": " ++ h.value

/-- `h1_session_submit_request`: the bytes that `send_fn` gets. -/
def h1SessionSubmitRequest (method authority path : Str8) (headers : HeaderList) (body : Str8) : Str8 :=
  method ++ lit " " ++ path ++ lit " HTTP/1.1\r\n" ++
  lit "Host: " ++ authority ++ lit "\r\n" ++
  (h1KeptHeaders headers).flatMap (fun h => h1HeaderLine h ++ lit "\r\n") ++
  lit "\r\n" ++ body

/-! ## A reader -/

/-- The bytes up to the first CRLF, and what follows it. -/
def h1ReadLine : Str8 → Option (Str8 × Str8)
  | 13 :: 10 :: rest => some ([], rest)
  | c :: rest => (h1ReadLine rest).map (fun p => (c :: p.1, p.2))
  | [] => none

/-- The lines up to the first empty one, and what follows it. Every line takes two bytes at least, so `fuel`
    need not exceed the length. -/
def h1ReadLines : Nat → Str8 → Option (List Str8 × Str8)
  | 0, _ => none
  | fuel + 1, s =>
    match h1ReadLine s with
    | none => none
    | some ([], rest) => some ([], rest)
    | some (line, rest) => (h1ReadLines fuel rest).map (fun p => (line :: p.1, p.2))

/-- The head of a message as its lines, and the body. -/
def h1ReadHead (s : Str8) : Option (List Str8 × Str8) := h1ReadLines s.length s

/-- A line cut at its spaces. -/
def h1Words (line : Str8) : List Str8 := line.splitOn 32

/-- A header line cut at its first colon: the name, and the value without the blank before it. -/
def h1SplitHeader (line : Str8) : Str8 × Str8 :=
  (line.takeWhile (· != 58), (line.dropWhile (· != 58)).drop 2)

/-! ## What is written is what is read -/

section

variable {line rest body w : Str8}

theorem h1ReadLine_append (hcr : 13 ∉ line) : h1ReadLine (line ++ 13 :: 10 :: rest) = some (line, rest) := by
  induction line with
  | nil => rfl
  | cons c line ih =>
    obtain ⟨hc, hline⟩ := not_or.mp (fun h => hcr (List.mem_cons.mpr h))
    rw [List.cons_append, h1ReadLine.eq_2 _ _ (fun _ h => absurd h.symm hc), ih hline]
    rfl

theorem h1ReadLines_flatMap {lines : List Str8} (hlines : ∀ l ∈ lines, l ≠ [] ∧ 13 ∉ l) {fuel : Nat}
    (hfuel : lines.length < fuel) :
    h1ReadLines fuel (lines.flatMap (fun l => l ++ lit "\r\n") ++ lit "\r\n" ++ body) = some (lines, body) := by
  induction lines generalizing fuel with
  | nil =>
    obtain ⟨fuel, rfl⟩ := Nat.exists_eq_succ_of_ne_zero (Nat.ne_of_gt hfuel)
    rfl
  | cons l lines ih =>
    obtain ⟨fuel, rfl⟩ := Nat.exists_eq_succ_of_ne_zero (Nat.ne_of_gt (Nat.zero_lt_of_lt hfuel))
    obtain ⟨hne, hcr⟩ := hlines l List.mem_cons_self
    have hsplit : (l :: lines).flatMap (fun l => l ++ lit "\r\n") ++ lit "\r\n" ++ body =
        l ++ 13 :: 10 :: (lines.flatMap (fun l => l ++ lit "\r\n") ++ lit "\r\n" ++ body) := by
      rw [List.flatMap_cons, show lit "\r\n" = [13, 10] from rfl]
      simp only [List.append_assoc, List.cons_append, List.nil_append]
    have hrest := ih (fun x hx => hlines x (List.mem_cons_of_mem l hx)) (Nat.lt_of_succ_lt_succ hfuel)
    obtain ⟨c, l, rfl⟩ := List.exists_cons_of_ne_nil hne
    rw [hsplit, h1ReadLines, h1ReadLine_append hcr]
    dsimp only
    rw [hrest]
    rfl

theorem not_space_of_mem (hw : 32 ∉ w) : ∀ b ∈ w, (b == 32) = false := by
  intro b hb
  rw [beq_eq_false_iff_ne]
  rintro rfl
  exact hw hb

theorem h1Words_append (hw : 32 ∉ w) : h1Words (w ++ 32 :: rest) = w :: h1Words rest :=
  List.splitOnP_append_cons_of_forall_mem (not_space_of_mem hw) 32 rfl rest

theorem h1Words_word (hw : 32 ∉ w) : h1Words w = [w] := List.splitOnP_eq_singleton (not_space_of_mem hw)

theorem h1SplitHeader_line {h : Header} (hname : 58 ∉ h.name) : h1SplitHeader (h1HeaderLine h) = (h.name, h.value) := by
  have hall : ∀ b ∈ h.name, (b != 58) = true := by
    intro b hb
    rw [bne_iff_ne]
    rintro rfl
    exact hname hb
  have hline : h1HeaderLine h = h.name ++ 58 :: 32 :: h.value := by
    rw [h1HeaderLine, List.append_assoc]
    rfl
  rw [h1SplitHeader, hline, List.takeWhile_append_of_pos hall, List.dropWhile_append_of_pos hall]
  simp

variable {method authority path : Str8} {headers : HeaderList}

/-- The lines of a request head. -/
def h1RequestLines (method authority path : Str8) (headers : HeaderList) : List Str8 :=
  (method ++ lit " " ++ path ++ lit " HTTP/1.1") :: (lit "Host: " ++ authority) ::
    (h1KeptHeaders headers).map h1HeaderLine

theorem h1SessionSubmitRequest_eq : h1SessionSubmitRequest method authority path headers body =
    (h1RequestLines method authority path headers).flatMap (fun l => l ++ lit "\r\n") ++ lit "\r\n" ++ body := by
  have hversion : lit " HTTP/1.1\r\n" = lit " HTTP/1.1" ++ lit "\r\n" := rfl
  rw [h1SessionSubmitRequest, h1RequestLines, List.flatMap_cons, List.flatMap_cons, List.flatMap_map, hversion]
  simp only [List.append_assoc]

/-- **A request head reads back as the lines it was written from**, when nothing in it holds a CR. -/
theorem h1ReadHead_submitted (hm : 13 ∉ method) (ha : 13 ∉ authority) (hp : 13 ∉ path)
    (hh : ∀ h ∈ headers, 13 ∉ h.name ∧ 13 ∉ h.value) :
    h1ReadHead (h1SessionSubmitRequest method authority path headers body) =
      some (h1RequestLines method authority path headers, body) := by
  have hlines : ∀ l ∈ h1RequestLines method authority path headers, l ≠ [] ∧ 13 ∉ l := by
    intro l hl
    simp only [h1RequestLines, List.mem_cons, List.mem_map] at hl
    rcases hl with rfl | rfl | ⟨h, hmem, rfl⟩
    · simp [hm, hp, lit]
    · simp [ha, lit]
    · obtain ⟨hn, hv⟩ := hh h (List.mem_of_mem_filter hmem)
      simp [h1HeaderLine, hn, hv, lit]
  rw [h1ReadHead, h1SessionSubmitRequest_eq]
  apply h1ReadLines_flatMap hlines
  -- each line brings its two bytes
  have hlen : ∀ lines : List Str8, lines.length ≤ (lines.flatMap (fun l => l ++ lit "\r\n")).length := by
    intro lines
    induction lines with
    | nil => exact Nat.le_refl 0
    | cons l lines ih =>
      rw [List.flatMap_cons, List.length_append, List.length_append, List.length_cons]
      have : (lit "\r\n").length = 2 := rfl
      omega
  have hend : (lit "\r\n").length = 2 := rfl
  rw [List.length_append, List.length_append]
  exact Nat.lt_of_le_of_lt (hlen _) (by omega)

theorem h1Words_requestLine (hm : 32 ∉ method) (hp : 32 ∉ path) :
    h1Words (method ++ lit " " ++ path ++ lit " HTTP/1.1") = [method, path, lit "HTTP/1.1"] := by
  have hline : method ++ lit " " ++ path ++ lit " HTTP/1.1" = method ++ 32 :: (path ++ 32 :: lit "HTTP/1.1") := by
    simp only [List.append_assoc]
    rfl
  rw [hline, h1Words_append hm, h1Words_append hp, h1Words_word (by decide)]

end

end HolyTls
