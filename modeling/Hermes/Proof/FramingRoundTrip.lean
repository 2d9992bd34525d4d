import Hermes.Spec.McpFraming

/-!
# What is sent over stdio is read back

* `decode_encode`, `encode_ascii`: bytes and texts.
* `int_digits`, `readHeaders_frame`: the header says how many bytes follow.
* `readMessage_frame`: one frame is read as its object, and what is behind it stays.
* `framing_round_trip`: the frames of many objects, in any chunks.
-/

namespace Hermes

open Chunks (Reader)

namespace PyStr

/-! ## Bytes and texts -/

theorem chars_eq_some {text : PyStr} : ∀ {cs}, text.chars = some cs → text = cs.map .char := by
  induction text with
  | nil =>
    rintro cs ⟨⟩
    rfl
  | cons c text ih =>
    intro cs h
    unfold chars at h ih
    rw [List.mapM_cons] at h
    cases c with
    | surrogate n => cases h
    | char ch =>
      simp only [Option.bind_eq_bind, Option.bind_some] at h
      obtain ⟨cs', hcs', hcs⟩ := Option.bind_eq_some_iff.1 h
      cases hcs
      rw [ih hcs']
      rfl

theorem chars_map (cs : List Char) : PyStr.chars (cs.map .char) = some cs := by
  unfold chars
  induction cs with
  | nil => rfl
  | cons ch cs ih =>
    rw [List.map_cons, List.mapM_cons, ih]
    rfl

theorem exists_chars {text : PyStr} (h : PyStr.Encodable text) :
    ∃ cs : List Char, text = cs.map .char := by
  induction text with
  | nil => exact ⟨[], rfl⟩
  | cons c text ih =>
    obtain ⟨ch, rfl⟩ := h c (by simp)
    obtain ⟨cs, hcs⟩ := ih fun c' hc' => h c' (List.mem_cons_of_mem _ hc')
    exact ⟨ch :: cs, by rw [hcs]; rfl⟩

/-- A text without surrogates is encoded, unless there is no memory for its bytes. -/
theorem encode_error {text : PyStr} {e : FramingExc} (htext : PyStr.Encodable text)
    (h : text.encode = .error e) : e = .memory := by
  obtain ⟨cs, rfl⟩ := exists_chars htext
  unfold encode at h
  rw [chars_map] at h
  simp only at h
  split at h
  · cases h
    rfl
  · cases h

/-- What is encoded is decoded. -/
theorem decode_encode {text : PyStr} {data : List UInt8} (h : text.encode = .ok data) :
    decode data = .ok text ∧ data.length ≤ maxsize := by
  unfold encode at h
  cases hchars : text.chars with
  | none =>
    rw [hchars] at h
    cases h
  | some cs =>
    rw [hchars] at h
    simp only at h
    split at h
    · cases h
    · rename_i hsize
      cases h
      refine ⟨?_, by omega⟩
      have hutf8 : (cs.flatMap String.utf8EncodeChar).toByteArray = cs.utf8Encode := rfl
      unfold decode
      rw [hutf8, List.utf8Decode?_utf8Encode]
      simp only
      rw [chars_eq_some hchars]

/-- The bytes of a text in ASCII. -/
def asciiBytes (cs : List Char) : List UInt8 := cs.map fun ch => UInt8.ofNat ch.toNat

theorem encode_ascii (cs : List Char) (hascii : ∀ ch ∈ cs, ch.toNat < 128)
    (hsize : cs.length ≤ maxsize) : encode (cs.map .char) = .ok (asciiBytes cs) := by
  have hbytes : cs.flatMap String.utf8EncodeChar = asciiBytes cs := by
    unfold asciiBytes
    rw [List.map_eq_flatMap]
    refine List.flatMap_congr fun ch hch => ?_
    have hval : ch.val.toNat ≤ 127 := Nat.le_of_lt_succ (hascii ch hch)
    unfold String.utf8EncodeChar
    simp only [if_pos hval]
    rfl
  unfold encode
  rw [chars_map]
  simp only [hbytes]
  have hlength : (asciiBytes cs).length = cs.length := List.length_map ..
  rw [if_neg (by omega)]

variable (U : Unicode)

/-! ## The parts of a header -/

/-- `strip` takes away the blanks around a word. -/
theorem strip_padded {a word b : PyStr} (ha : ∀ c ∈ a, isSpace U c = true)
    (hb : ∀ c ∈ b, isSpace U c = true) (hword : ∀ c ∈ word, isSpace U c = false) (hne : word ≠ []) :
    strip U (a ++ (word ++ b)) = word := by
  have hfirst : (word ++ b).dropWhile (isSpace U) = word ++ b := by
    cases word with
    | nil => exact absurd rfl hne
    | cons c word =>
      rw [List.cons_append, List.dropWhile_cons_of_neg]
      simp [hword c (by simp)]
  have hlast : word.rdropWhile (isSpace U) = word := by
    rw [List.rdropWhile_eq_self_iff]
    intro _
    simp [hword _ (List.getLast_mem hne)]
  unfold strip
  rw [List.dropWhile_append_of_pos ha, hfirst]
  unfold List.rdropWhile at hlast ⊢
  have hback : ∀ c ∈ b.reverse, isSpace U c = true := fun c hc => hb c (List.mem_reverse.1 hc)
  rw [List.reverse_append, List.dropWhile_append_of_pos hback, hlast]

theorem partition_cut {before : PyStr} {sep : Char} (h : .char sep ∉ before) (after : PyStr) :
    partition sep (before ++ .char sep :: after) = (before, after) := by
  unfold partition
  simp only [Chunks.takeWhile_cut h]
  rw [List.drop_append]
  simp

/-- The value of digits. -/
theorem digits_eq {cs : List Char} (hdigits : ∀ ch ∈ cs, ch.isDigit = true) :
    ∀ last acc, (cs ≠ [] ∨ last = true) →
      digits U last acc (cs.map .char) = some (Nat.ofDigitChars 10 cs acc) := by
  induction cs with
  | nil =>
    rintro last acc (h | rfl)
    · exact absurd rfl h
    · simp [digits]
  | cons ch cs ih =>
    intro last acc _
    have hdigit := hdigits ch (by simp)
    have hascii : ch.toNat < 128 := by
      simp only [Char.isDigit, Bool.and_eq_true, decide_eq_true_eq] at hdigit
      have h := UInt32.le_iff_toNat_le.1 hdigit.2
      exact lt_of_le_of_lt h (by decide)
    have hunderscore : ch ≠ '_' := by
      rintro rfl
      exact absurd hdigit (by decide)
    rw [List.map_cons]
    unfold digits
    rw [if_neg hunderscore, U.decimal_ascii ch hascii, if_pos hdigit]
    simp only
    rw [ih (fun c hc => hdigits c (List.mem_cons_of_mem _ hc)) _ _ (.inr rfl),
      Nat.ofDigitChars_cons]

theorem digits_of_toDigits (n : ℕ) : ∀ ch ∈ Nat.toDigits 10 n, ch.isDigit = true :=
  fun _ hch => Nat.isDigit_of_mem_toDigits (by decide) (by decide) hch

theorem ascii_of_digit {ch : Char} (h : ch.isDigit = true) : 48 ≤ ch.toNat ∧ ch.toNat ≤ 57 := by
  simp only [Char.isDigit, Bool.and_eq_true, decide_eq_true_eq] at h
  exact ⟨UInt32.le_iff_toNat_le.1 h.1, UInt32.le_iff_toNat_le.1 h.2⟩

/-- Digits are no blanks. -/
theorem isSpace_digit {ch : Char} (h : ch.isDigit = true) : isSpace U (.char ch) = false := by
  have hch := ascii_of_digit h
  show U.space ch = false
  rw [U.space_ascii ch (by omega)]
  exact decide_eq_false (by omega)

/-- `int` of a number that `str` has written. -/
theorem int_digits (n : ℕ) :
    int U ((Nat.toDigits 10 n).map .char) = some (n : ℤ) := by
  have hdigits := digits_of_toDigits n
  have hne : Nat.toDigits 10 n ≠ [] := Nat.toDigits_ne_nil
  have hstrip : strip U ((Nat.toDigits 10 n).map .char) = (Nat.toDigits 10 n).map .char := by
    have hword : ∀ c ∈ (Nat.toDigits 10 n).map PyChar.char, isSpace U c = false := by
      intro c hc
      obtain ⟨ch, hch, rfl⟩ := List.mem_map.1 hc
      exact isSpace_digit U (hdigits ch hch)
    have h : strip U ([] ++ ((Nat.toDigits 10 n).map PyChar.char ++ [])) =
        (Nat.toDigits 10 n).map .char := strip_padded U nofun nofun hword (by simp)
    simpa using h
  have hvalue : digits U false 0 ((Nat.toDigits 10 n).map .char) = some n := by
    rw [digits_eq U hdigits _ _ (.inl hne), Nat.ofDigitChars_ten_toDigits]
  have hsign : ∀ (ch : Char) (rest : PyStr), ch.isDigit = false →
      (Nat.toDigits 10 n).map PyChar.char ≠ .char ch :: rest := by
    intro ch rest hch heq
    cases hcs : Nat.toDigits 10 n with
    | nil => exact hne hcs
    | cons d cs =>
      rw [hcs] at heq hdigits
      cases heq
      rw [hdigits ch (by simp)] at hch
      cases hch
  unfold int
  simp only [hstrip]
  split
  · rename_i rest heq
    exact absurd heq (hsign '-' rest (by decide))
  · rename_i rest heq
    exact absurd heq (hsign '+' rest (by decide))
  · simp only
    rw [hvalue]
    rfl

end PyStr

/-! ## Objects that can be encoded -/

namespace Json

theorem dumpsChar_encodable (c : PyChar) : PyStr.Encodable (dumpsChar c) ↔ ∃ ch, c = .char ch := by
  cases c with
  | surrogate n => simp [dumpsChar, PyStr.Encodable]
  | char ch =>
    refine iff_of_true ?_ ⟨ch, rfl⟩
    have hhex : PyStr.Encodable (hex 4 ch.toNat) := PyStr.encodable_chars _
    unfold dumpsChar
    simp only
    split_ifs with hslash
    · exact PyStr.encodable_chars [Char.ofNat 92, ch]
    iterate 5 exact PyStr.encodable_py _
    · exact PyStr.encodable_append.2 ⟨PyStr.encodable_py _, hhex⟩
    · exact PyStr.encodable_chars [ch]

theorem dumpsStr_encodable (s : PyStr) : PyStr.Encodable (dumpsStr s) ↔ PyStr.Encodable s := by
  have hquote : PyStr.Encodable [.char (Char.ofNat 34)] := PyStr.encodable_py "\""
  unfold dumpsStr
  rw [PyStr.encodable_append, PyStr.encodable_append]
  have hflat : PyStr.Encodable (s.flatMap dumpsChar) ↔ ∀ c ∈ s, PyStr.Encodable (dumpsChar c) := by
    unfold PyStr.Encodable
    simp only [List.mem_flatMap]
    constructor
    · exact fun h c hc d hd => h d ⟨c, hc, hd⟩
    · rintro h d ⟨c, hc, hd⟩
      exact h c hc d hd
  rw [hflat]
  constructor
  · exact fun h c hc => (dumpsChar_encodable c).1 (h.1.2 c hc)
  · exact fun h => ⟨⟨hquote, fun c hc => (dumpsChar_encodable c).2 (h c hc)⟩, hquote⟩

mutual

/-- The text of a value is encodable when all texts in it are. -/
theorem dumps_encodable : ∀ v : Json, PyStr.Encodable (dumps v) ↔ v.encodable = true
  | .null => iff_of_true (PyStr.encodable_py _) rfl
  | .bool _ => iff_of_true (PyStr.encodable_py _) rfl
  | .int _ => iff_of_true (PyStr.encodable_py _) rfl
  | .float x => by
    refine iff_of_true ?_ rfl
    unfold dumps dumpsFloat
    repeat' split
    all_goals exact PyStr.encodable_py _
  | .str s => by
    unfold dumps encodable
    rw [dumpsStr_encodable, decide_eq_true_eq]
  | .arr xs => by
    unfold dumps encodable
    rw [PyStr.encodable_append, PyStr.encodable_append, dumpsList_encodable xs]
    simp [PyStr.encodable_py]
  | .obj kvs => by
    unfold dumps encodable
    rw [PyStr.encodable_append, PyStr.encodable_append, dumpsFields_encodable kvs]
    simp [PyStr.encodable_py]

theorem dumpsList_encodable : ∀ vs : List Json,
    PyStr.Encodable (dumpsList vs) ↔ encodableList vs = true
  | [] => iff_of_true nofun rfl
  | [v] => by
    unfold dumpsList
    rw [dumps_encodable v]
    simp [encodableList]
  | v :: w :: vs => by
    unfold dumpsList
    rw [PyStr.encodable_append, PyStr.encodable_append, dumps_encodable v,
      dumpsList_encodable (w :: vs)]
    simp [encodableList, PyStr.encodable_py]

theorem dumpsFields_encodable : ∀ kvs : List (PyStr × Json),
    PyStr.Encodable (dumpsFields kvs) ↔ encodableFields kvs = true
  | [] => iff_of_true nofun rfl
  | [(k, v)] => by
    unfold dumpsFields
    rw [PyStr.encodable_append, PyStr.encodable_append, dumpsStr_encodable k, dumps_encodable v]
    simp [encodableFields, PyStr.encodable_py]
  | (k, v) :: kv :: kvs => by
    unfold dumpsFields
    rw [PyStr.encodable_append, PyStr.encodable_append, PyStr.encodable_append,
      PyStr.encodable_append, dumpsStr_encodable k, dumps_encodable v,
      dumpsFields_encodable (kv :: kvs)]
    simp [encodableFields, PyStr.encodable_py]

end

end Json

/-! ## Lines -/

namespace StreamReader

variable {r : Reader UInt8} {line rest : List UInt8}

theorem readline_eq (hrest : r.rest = line ++ 10 :: rest) (hline : 10 ∉ line)
    (hlimit : line.length ≤ limit) :
    ∃ r', readline r = (.ok (line ++ [10]), r') ∧ r'.rest = rest := by
  obtain ⟨r', hread, hr'⟩ := Chunks.readUntil_eq hrest hline hlimit
  refine ⟨r', ?_, hr'⟩
  unfold readline
  rw [hread]

theorem readline_ended (hrest : r.rest = []) : ∃ r', readline r = (.ok [], r') ∧ r'.rest = [] := by
  obtain ⟨r', hread, hr'⟩ := Chunks.readUntil_ended limit (10 : UInt8) hrest
  refine ⟨r', ?_, hr'⟩
  unfold readline
  rw [hread]

theorem readexactly_eq {data : List UInt8} (hrest : r.rest = data ++ rest) :
    ∃ r', readexactly data.length r = (.ok data, r') ∧ r'.rest = rest := by
  obtain ⟨r', hread, hr'⟩ := Chunks.readExactly_eq hrest
  refine ⟨r', ?_, hr'⟩
  unfold readexactly
  rw [if_neg (by omega), Int.toNat_natCast, hread]

end StreamReader

namespace McpServer

open PyStr (asciiBytes)

variable (U : Unicode) {r r' : Reader UInt8} {headers : Dict PyStr PyStr} {line rest : List UInt8}

theorem readHeaders_end (hread : StreamReader.readline r = (.ok line, r'))
    (hend : line = [] ∨ line = [13, 10]) : readHeaders U r headers = (.ok headers, r') := by
  rw [readHeaders]
  split
  · rename_i hread'
    rw [hread] at hread'
    cases hread'
  · rename_i hread'
    rw [hread] at hread'
    cases hread'
    rw [dif_pos hend]

theorem readHeaders_field {text : PyStr} (hread : StreamReader.readline r = (.ok line, r'))
    (hend : ¬ (line = [] ∨ line = [13, 10])) (hcolon : 58 ∈ line)
    (hdecode : PyStr.decode line = .ok text) :
    readHeaders U r headers = readHeaders U r' (headers.insert
      (U.lower (PyStr.strip U (PyStr.partition ':' text).1))
      (PyStr.strip U (PyStr.partition ':' text).2)) := by
  rw [readHeaders]
  split
  · rename_i hread'
    rw [hread] at hread'
    cases hread'
  · rename_i hread'
    rw [hread] at hread'
    cases hread'
    rw [dif_neg hend, if_pos hcolon, hdecode]

/-! ## Frames -/

/-- The first line of a header, without its last character. -/
def headerLine (n : ℕ) : List Char := "Content-Length: ".toList ++ (Nat.toDigits 10 n ++ ['\r'])

/-- What is written for an object. -/
def frame (data : List UInt8) : List UInt8 :=
  asciiBytes (headerLine data.length) ++ 10 :: 13 :: 10 :: data

theorem header_text (n : ℕ) : py ("Content-Length: " ++ toString n ++ "\r\n\r\n") =
    (headerLine n ++ ['\n', '\r', '\n']).map .char := by
  have hdigits : (toString n).toList = Nat.toDigits 10 n := Nat.toList_repr
  have hend : "\r\n\r\n".toList = ['\r', '\n', '\r', '\n'] := by decide
  unfold py headerLine
  rw [String.toList_append, String.toList_append, hdigits, hend]
  simp only [List.append_assoc, List.cons_append, List.nil_append]

theorem ascii_headerLine (n : ℕ) : ∀ ch ∈ headerLine n, 13 ≤ ch.toNat ∧ ch.toNat < 128 := by
  intro ch hch
  have hname : ∀ ch ∈ "Content-Length: ".toList, 13 ≤ ch.toNat ∧ ch.toNat < 128 := by simp
  unfold headerLine at hch
  rcases List.mem_append.1 hch with hch | hch
  · exact hname ch hch
  · rcases List.mem_append.1 hch with hch | hch
    · have h := PyStr.ascii_of_digit (PyStr.digits_of_toDigits n ch hch)
      omega
    · rw [List.mem_singleton.1 hch]
      decide

theorem headerLine_length {n : ℕ} (hsize : n ≤ PyStr.maxsize) : (headerLine n).length ≤ 36 := by
  have hlength : (Nat.toDigits 10 n).length ≤ 19 := by
    rw [Nat.length_toDigits_le_iff (by decide) (by decide)]
    unfold PyStr.maxsize at hsize
    omega
  have hname : "Content-Length: ".toList.length = 16 := by decide
  unfold headerLine
  rw [List.length_append, List.length_append, List.length_singleton, hname]
  omega

/-- What `_send` writes. -/
theorem send_ok {written : List UInt8} {obj : Json} {writer : Option (List UInt8)}
    (h : send (some written) obj = .ok writer) :
    ∃ data, obj.dumps.encode = .ok data ∧ writer = some (written ++ frame data) := by
  unfold send at h
  simp only at h
  cases hdata : obj.dumps.encode with
  | error e =>
    rw [hdata] at h
    cases h
  | ok data =>
    have hsize := (PyStr.decode_encode hdata).2
    have hlength := headerLine_length hsize
    have hend : ∀ ch ∈ ['\n', '\r', '\n'], ch.toNat < 128 := by simp
    have hheader := PyStr.encode_ascii (headerLine data.length ++ ['\n', '\r', '\n'])
      (by
        intro ch hch
        rcases List.mem_append.1 hch with hch | hch
        · exact (ascii_headerLine _ ch hch).2
        · exact hend ch hch)
      (by
        rw [List.length_append]
        unfold PyStr.maxsize
        simp only [List.length_cons, List.length_nil]
        omega)
    rw [hdata] at h
    simp only at h
    rw [header_text, hheader] at h
    cases h
    refine ⟨data, rfl, ?_⟩
    unfold frame asciiBytes
    rw [List.map_append, List.append_assoc]
    rfl

/-- An object with encodable texts is written, unless there is no memory for its bytes. -/
theorem send_error {written : List UInt8} {obj : Json} {e : FramingExc}
    (hobj : obj.encodable = true) (h : send (some written) obj = .error e) : e = .memory := by
  unfold send at h
  simp only at h
  split at h
  · rename_i hdata
    cases h
    exact PyStr.encode_error ((Json.dumps_encodable obj).2 hobj) hdata
  · rename_i data hdata
    rw [header_text] at h
    split at h
    · rename_i hheader
      cases h
      exact PyStr.encode_error (PyStr.encodable_chars _) hheader
    · cases h

theorem sendAll_error {objs : List Json} {e : FramingExc}
    (hobjs : ∀ obj ∈ objs, obj.encodable = true) : ∀ {written : List UInt8},
      sendAll (some written) objs = .error e → e = .memory := by
  induction objs with
  | nil => rintro written ⟨⟩
  | cons obj objs ih =>
    intro written h
    rw [List.forall_mem_cons] at hobjs
    unfold sendAll at h
    cases hsend : send (some written) obj with
    | error e' =>
      rw [hsend] at h
      cases h
      exact send_error hobjs.1 hsend
    | ok writer =>
      obtain ⟨data, -, rfl⟩ := send_ok hsend
      rw [hsend] at h
      exact ih hobjs.2 h

/-- What `_send` writes for many objects. -/
theorem sendAll_ok {objs : List Json} : ∀ {written stream : List UInt8},
    sendAll (some written) objs = .ok (some stream) →
      ∃ datas, List.Forall₂ (fun obj data => obj.dumps.encode = .ok data) objs datas ∧
        stream = written ++ (datas.map frame).flatten := by
  induction objs with
  | nil =>
    rintro written stream ⟨⟩
    exact ⟨[], .nil, by simp⟩
  | cons obj objs ih =>
    intro written stream h
    unfold sendAll at h
    cases hsend : send (some written) obj with
    | error e =>
      rw [hsend] at h
      cases h
    | ok writer =>
      obtain ⟨data, hdata, rfl⟩ := send_ok hsend
      rw [hsend] at h
      obtain ⟨datas, hdatas, rfl⟩ := ih h
      exact ⟨data :: datas, .cons hdata hdatas, by simp⟩

/-! ## Reading a frame -/

theorem line_bytes (n : ℕ) : (10 : UInt8) ∉ asciiBytes (headerLine n) := by
  intro hmem
  obtain ⟨ch, hch, heq⟩ := List.mem_map.1 hmem
  have hascii := ascii_headerLine n ch hch
  have hval := congrArg UInt8.toNat heq
  rw [UInt8.toNat_ofNat'] at hval
  have hten : (10 : UInt8).toNat = 10 := by decide
  omega

/-- The first line of a header as a text. -/
theorem decode_headerLine {n : ℕ} (hsize : n ≤ PyStr.maxsize) :
    PyStr.decode (asciiBytes (headerLine n) ++ [10]) =
      .ok (py "Content-Length" ++ .char ':' ::
        (py " " ++ ((Nat.toDigits 10 n).map .char ++ py "\r\n"))) := by
  have hlength := headerLine_length hsize
  have hencode := PyStr.encode_ascii (headerLine n ++ ['\n'])
    (by
      intro ch hch
      rcases List.mem_append.1 hch with hch | hch
      · exact (ascii_headerLine n ch hch).2
      · rw [List.mem_singleton.1 hch]
        decide)
    (by
      rw [List.length_append, List.length_singleton]
      unfold PyStr.maxsize
      omega)
  have hbytes : asciiBytes (headerLine n ++ ['\n']) = asciiBytes (headerLine n) ++ [10] :=
    List.map_append
  rw [hbytes] at hencode
  rw [(PyStr.decode_encode hencode).1]
  have hname : "Content-Length: ".toList = "Content-Length".toList ++ [':', ' '] := by decide
  have hend : "\r\n".toList = ['\r', '\n'] := by decide
  have hblank : " ".toList = [' '] := by decide
  unfold headerLine py
  rw [hname, hend, hblank]
  simp

/-- The name of the field, and its value. -/
theorem header_field (n : ℕ) :
    let field := PyStr.partition ':' (py "Content-Length" ++ .char ':' ::
      (py " " ++ ((Nat.toDigits 10 n).map .char ++ py "\r\n")))
    U.lower (PyStr.strip U field.1) = py "content-length" ∧
      PyStr.strip U field.2 = (Nat.toDigits 10 n).map .char := by
  have hcolon : .char ':' ∉ py "Content-Length" := by decide
  have hblank : ∀ s : List Char, (∀ ch ∈ s, 9 ≤ ch.toNat ∧ ch.toNat ≤ 13 ∨ ch.toNat = 32) →
      ∀ c ∈ s.map PyChar.char, PyStr.isSpace U c = true := by
    intro s hs c hc
    obtain ⟨ch, hch, rfl⟩ := List.mem_map.1 hc
    have h := hs ch hch
    show U.space ch = true
    rw [U.space_ascii ch (by omega)]
    exact decide_eq_true (by omega)
  have hletters : ∀ c ∈ py "Content-Length", PyStr.isSpace U c = false := by
    intro c hc
    have hall : ∀ ch ∈ "Content-Length".toList, 32 < ch.toNat ∧ ch.toNat < 128 := by simp
    obtain ⟨ch, hch, rfl⟩ := List.mem_map.1 hc
    have h := hall ch hch
    show U.space ch = false
    rw [U.space_ascii ch h.2]
    exact decide_eq_false (by omega)
  have hdigits : ∀ c ∈ (Nat.toDigits 10 n).map PyChar.char, PyStr.isSpace U c = false := by
    intro c hc
    obtain ⟨ch, hch, rfl⟩ := List.mem_map.1 hc
    exact PyStr.isSpace_digit U (PyStr.digits_of_toDigits n ch hch)
  simp only [PyStr.partition_cut hcolon]
  constructor
  · have hstrip := PyStr.strip_padded U (a := []) (b := []) nofun nofun hletters (by decide)
    rw [List.append_nil, List.nil_append] at hstrip
    rw [hstrip]
    exact (U.lower_ascii "Content-Length".toList (by simp)).trans (by decide)
  · exact PyStr.strip_padded U (hblank " ".toList (by simp)) (hblank "\r\n".toList (by simp))
      hdigits (by simp)

/-- The header of a frame says how many bytes follow. -/
theorem readHeaders_frame {data : List UInt8} (hsize : data.length ≤ PyStr.maxsize)
    (hrest : r.rest = frame data ++ rest) :
    ∃ r', readHeaders U r ∅ = (.ok ((∅ : Dict PyStr PyStr).insert (py "content-length")
      ((Nat.toDigits 10 data.length).map .char)), r') ∧ r'.rest = data ++ rest := by
  have hlength := headerLine_length hsize
  have hline : (asciiBytes (headerLine data.length)).length ≤ StreamReader.limit := by
    unfold asciiBytes StreamReader.limit
    rw [List.length_map]
    omega
  have hfirst : r.rest = asciiBytes (headerLine data.length) ++ 10 :: ([13] ++ 10 :: (data ++ rest)) := by
    rw [hrest]
    unfold frame
    simp
  obtain ⟨r₁, hread₁, hr₁⟩ := StreamReader.readline_eq hfirst (line_bytes _) hline
  obtain ⟨r₂, hread₂, hr₂⟩ := StreamReader.readline_eq hr₁ (by decide) (by decide)
  have hend : ¬ (asciiBytes (headerLine data.length) ++ [10] = [] ∨
      asciiBytes (headerLine data.length) ++ [10] = [13, 10]) := by
    rintro (h | h)
    · simp at h
    · have hlen := congrArg List.length h
      unfold asciiBytes headerLine at hlen
      simp at hlen
  have hcolon : 58 ∈ asciiBytes (headerLine data.length) ++ [10] := by
    refine List.mem_append_left _ (List.mem_map.2 ⟨':', ?_, by decide⟩)
    exact List.mem_append_left _ (by decide)
  obtain ⟨hname, hvalue⟩ := header_field U data.length
  refine ⟨r₂, ?_, hr₂⟩
  rw [readHeaders_field U hread₁ hend hcolon (decode_headerLine hsize), hname, hvalue]
  exact readHeaders_end U hread₂ (.inr rfl)

/-- **A frame is read** as what `json.loads` makes of its text; what is behind it stays. -/
theorem readMessage_frame (loads : PyStr → Except FramingExc Json) {text : PyStr}
    {data : List UInt8} (hdata : text.encode = .ok data) (hrest : r.rest = frame data ++ rest) :
    ∃ r', readMessage U loads r = (loads text, r') ∧ r'.rest = rest := by
  obtain ⟨hdecode, hsize⟩ := PyStr.decode_encode hdata
  obtain ⟨r₁, hheaders, hr₁⟩ := readHeaders_frame U hsize hrest
  obtain ⟨r₂, hbody, hr₂⟩ := StreamReader.readexactly_eq hr₁
  refine ⟨r₂, ?_, hr₂⟩
  unfold readMessage
  rw [hheaders]
  simp only [Dict.get?_insert_self, PyStr.int_digits U, hbody, hdecode]

/-- At the end of the stream there is no message. -/
theorem readMessage_ended (loads : PyStr → Except FramingExc Json) (hrest : r.rest = []) :
    ∃ r', readMessage U loads r = (.ok .null, r') ∧ r'.rest = [] := by
  obtain ⟨r₁, hread, hr₁⟩ := StreamReader.readline_ended hrest
  refine ⟨r₁, ?_, hr₁⟩
  unfold readMessage
  rw [readHeaders_end U hread (.inl rfl)]
  rfl

/-- Frames are read one after the other; then there are no more messages. -/
theorem readAll_frames (loads : PyStr → Except FramingExc Json) {objs : List Json}
    {datas : List (List UInt8)}
    (hdatas : List.Forall₂ (fun obj data => obj.dumps.encode = .ok data) objs datas)
    (hloads : ∀ obj ∈ objs, loads obj.dumps = .ok obj) :
    ∀ {arrivals : List ℕ} {n : ℕ} {r : Reader UInt8}, arrivals.length = objs.length + n →
      r.rest = (datas.map frame).flatten →
      readAll U loads arrivals r = objs.map .ok ++ List.replicate n (.ok .null) := by
  induction hdatas with
  | nil =>
    intro arrivals
    induction arrivals with
    | nil =>
      intro n r hn _
      have hzero : n = 0 := by
        simp only [List.length_nil] at hn
        omega
      rw [hzero]
      rfl
    | cons k arrivals ih =>
      intro n r hn hrest
      obtain ⟨m, rfl⟩ : ∃ m, n = m + 1 := ⟨arrivals.length, by simpa using hn.symm⟩
      obtain ⟨r', hread, hr'⟩ := readMessage_ended U loads ((Reader.rest_arrive k r).trans hrest)
      have hrest' := ih (n := m) (by simpa using hn) hr'
      unfold readAll
      simp only [hread]
      rw [hrest', List.replicate_succ]
      rfl
  | @cons obj data objs datas hdata _ ih =>
    intro arrivals n r hn hrest
    cases arrivals with
    | nil =>
      simp only [List.length_nil, List.length_cons] at hn
      omega
    | cons k arrivals =>
      rw [List.map_cons, List.flatten_cons] at hrest
      obtain ⟨r', hread, hr'⟩ :=
        readMessage_frame U loads hdata ((Reader.rest_arrive k r).trans hrest)
      have hleft : arrivals.length = objs.length + n := by
        simp only [List.length_cons] at hn
        omega
      have hlater := ih (fun o ho => hloads o (List.mem_cons_of_mem _ ho)) hleft hr'
      unfold readAll
      simp only [hread]
      rw [hlater, hloads obj (by simp)]
      rfl

/-- **Stdio framing round trip**: objects with encodable texts are written, unless there is no memory
for the bytes of one; and what is written is read back as the objects, in any chunks and however
many have come before each read. Then there are no more messages. -/
theorem framing_round_trip (loads : PyStr → Except FramingExc Json) {objs : List Json}
    (hobjs : ∀ obj ∈ objs, obj.encodable = true) (hloads : ∀ obj ∈ objs, loads obj.dumps = .ok obj) :
    (∀ e, sendAll (some []) objs = .error e → e = .memory) ∧
    ∀ stream, sendAll (some []) objs = .ok (some stream) →
      ∀ (chunks : List (List UInt8)) (arrivals : List ℕ) (n : ℕ), chunks.flatten = stream →
        arrivals.length = objs.length + n →
        readAll U loads arrivals { pending := chunks } =
          objs.map .ok ++ List.replicate n (.ok .null) := by
  refine ⟨fun e herror => sendAll_error hobjs herror, ?_⟩
  intro stream hsent chunks arrivals n hchunks hn
  obtain ⟨datas, hdatas, hstream⟩ := sendAll_ok hsent
  have hrest : (Reader.mk [] chunks).rest = (datas.map frame).flatten := by
    unfold Reader.rest
    rw [hchunks, hstream]
    simp
  exact readAll_frames U loads hdatas hloads hn hrest

/-- The tables for ASCII alone. -/
def asciiTables : Unicode where
  space ch := decide (9 ≤ ch.toNat ∧ ch.toNat ≤ 13 ∨ 28 ≤ ch.toNat ∧ ch.toNat ≤ 32)
  decimal ch := if ch.isDigit then some (ch.toNat - '0'.toNat) else none
  lower text := text.map fun c => match c with
    | .char ch => .char ch.toLower
    | .surrogate n => .surrogate n
  space_ascii _ _ := rfl
  decimal_ascii _ _ := rfl
  lower_ascii text _ := by simp

/-- The object `\x7b"k": "é"\x7d`, and its frame. -/
def accented : Json := .obj [(py "k", .str [.char (Char.ofNat 233)])]

def accentedFrame : List UInt8 :=
  [67, 111, 110, 116, 101, 110, 116, 45, 76, 101, 110, 103, 116, 104, 58, 32, 49, 49, 13, 10, 13, 10,
    123, 34, 107, 34, 58, 32, 34, 195, 169, 34, 125]

def accentedLoads (text : PyStr) : Except FramingExc Json :=
  if text = accented.dumps then .ok accented else .error .jsonDecode

theorem framing_round_trip_accented :
    sendAll (some []) [accented] = .ok (some accentedFrame) ∧
      readAll asciiTables accentedLoads [1, 0, 2]
        { pending := [accentedFrame.take 30, accentedFrame.drop 30] } =
          [.ok accented, .ok .null, .ok .null] := by
  have hsent : sendAll (some []) [accented] = .ok (some accentedFrame) := by rfl
  have h := @framing_round_trip asciiTables accentedLoads [accented] (by simp; decide)
    (by simp [accentedLoads])
  exact ⟨hsent, h.2 accentedFrame hsent _ _ 2 (by simp) rfl⟩

end McpServer

/-!
## The loop of the stdio transport comes to its end

* `readline_less`: a line that is read, or cannot be read, is gone.
* `readMessage_less`: so each `_read_message` leaves less of the stream, whatever it makes of it.
* `round_less`: a round that another follows leaves less of the stream.
* `start_ends`: the loop ends, in no more rounds than there are bytes, and one.
-/

open Chunks (Reader)

namespace StreamReader

variable {r : Reader UInt8}

/-- **A line is gone** once `readline` has come to it, even if it is too long to be read. -/
theorem readline_less (hrest : r.rest ≠ []) : (readline r).2.rest.length < r.rest.length := by
  unfold readline
  split
  · rename_i line r' hread
    obtain ⟨hall, hline⟩ := Chunks.readUntil_rest hread
    have hpos := List.length_pos_iff.2 hline
    rw [hall, List.length_append]
    exact Nat.lt_add_of_pos_left hpos
  · rename_i part r' hread
    obtain ⟨-, hnone⟩ := Chunks.readUntil_incomplete hread
    simp only [hnone]
    exact List.length_pos_iff.2 hrest
  · rename_i consumed r' hread
    obtain ⟨hall, hlong⟩ := Chunks.readUntil_overrun hread
    rw [← hall]
    unfold Reader.rest
    simp only [List.length_append]
    split
    · rw [List.length_drop]
      omega
    · rw [List.length_nil]
      omega

theorem readline_le (r : Reader UInt8) : (readline r).2.rest.length ≤ r.rest.length := by
  by_cases hrest : r.rest = []
  · obtain ⟨r', hread, hr'⟩ := readline_ended hrest
    rw [hread, hr']
    exact Nat.zero_le _
  · exact (readline_less hrest).le

theorem readexactly_le (n : ℤ) (r : Reader UInt8) :
    (readexactly n r).2.rest.length ≤ r.rest.length := by
  have hle := Chunks.readExactly_le n.toNat r
  unfold readexactly
  split
  · exact le_rfl
  · generalize Chunks.readExactly n.toNat r = R at hle ⊢
    obtain ⟨result, r'⟩ := R
    cases result <;> exact hle

end StreamReader

namespace McpServer

variable (U : Unicode) {ρ : Type} {r r' : Reader UInt8} {writer writer' : Option (List UInt8)}

/-! ## Messages -/

theorem readHeaders_le (r : Reader UInt8) (headers : Dict PyStr PyStr) :
    (readHeaders U r headers).2.rest.length ≤ r.rest.length := by
  induction hn : r.rest.length using Nat.strong_induction_on generalizing r headers with
  | _ n ih =>
    subst hn
    have hle := StreamReader.readline_le r
    rw [readHeaders]
    split
    · rename_i e r' hread
      rw [hread] at hle
      exact hle
    · rename_i line r' hread
      rw [hread] at hle
      split
      · exact hle
      · rename_i hend
        have hless := StreamReader.readline_shrinks hread fun h => hend (.inl h)
        split
        · split
          · exact hle
          · exact (ih _ hless _ _ rfl).trans hle
        · exact (ih _ hless _ _ rfl).trans hle

/-- The header takes at least its first line from the stream. -/
theorem readHeaders_less (hrest : r.rest ≠ []) (headers : Dict PyStr PyStr) :
    (readHeaders U r headers).2.rest.length < r.rest.length := by
  have hless := StreamReader.readline_less hrest
  rw [readHeaders]
  split
  · rename_i e r' hread
    rw [hread] at hless
    exact hless
  · rename_i line r' hread
    rw [hread] at hless
    split
    · exact hless
    · split
      · split
        · exact hless
        · exact (readHeaders_le U _ _).trans_lt hless
      · exact (readHeaders_le U _ _).trans_lt hless

/-- **A message takes something from the stream**, whether it can be read or not. -/
theorem readMessage_less (loads : PyStr → Except FramingExc Json) (hrest : r.rest ≠ []) :
    (readMessage U loads r).2.rest.length < r.rest.length := by
  have hless := readHeaders_less U hrest ∅
  unfold readMessage
  generalize readHeaders U r ∅ = H at hless ⊢
  obtain ⟨headers, r₁⟩ := H
  cases headers with
  | error e => exact hless
  | ok headers =>
    simp only
    cases headers.get? (py "content-length") with
    | none => exact hless
    | some text =>
      simp only
      cases PyStr.int U text with
      | none => exact hless
      | some n =>
        have hle := StreamReader.readexactly_le n r₁
        simp only
        generalize StreamReader.readexactly n r₁ = B at hle ⊢
        obtain ⟨body, r₂⟩ := B
        cases body with
        | error e => exact hle.trans_lt hless
        | ok body =>
          simp only
          cases PyStr.decode body with
          | error e => exact hle.trans_lt hless
          | ok text => exact hle.trans_lt hless

/-! ## Rounds -/

/-- **A round that another follows** has taken something from the stream: at its end there is none. -/
theorem round_less {loads : PyStr → Except FramingExc Json} {env : Round ρ}
    (h : round U loads env r writer = .ok (r', writer')) : r'.rest.length < r.rest.length := by
  have harrived : (r.arrive env.arrivals).rest = r.rest := Reader.rest_arrive _ r
  by_cases hrest : r.rest = []
  · obtain ⟨r₁, hread, hr₁⟩ := readMessage_ended U loads (harrived.trans hrest)
    have hend : atEof env.fed r r₁ = true := by
      unfold atEof
      rw [hr₁, hrest]
      exact Bool.or_true _
    unfold round at h
    rw [hread] at h
    simp only [Json.isNull, if_true, hend] at h
    cases h
  · have hless := readMessage_less U loads (r := r.arrive env.arrivals) (by rwa [harrived])
    rw [harrived] at hless
    unfold round at h
    generalize readMessage U loads (r.arrive env.arrivals) = M at h hless
    obtain ⟨msg, r₁⟩ := M
    have hsame : r' = r₁ := by
      cases msg with
      | error e =>
        cases h
        rfl
      | ok msg =>
        simp only at h
        split at h
        · split at h
          · cases h
          · cases h
            rfl
        · split at h
          · cases h
          · cases h
            rfl
          · split at h
            · cases h
            · cases h
              rfl
    rw [hsame]
    exact hless

/-- **The loop of `start` ends**, after no more rounds than there are bytes, and one: whatever comes
in, in whatever chunks. -/
theorem start_ends (loads : PyStr → Except FramingExc Json) (rounds : ℕ → Round ρ) (r : Reader UInt8)
    (writer : Option (List UInt8)) :
    ∃ result, ∀ fuel, r.rest.length < fuel → start U loads fuel rounds r writer = some result := by
  induction hn : r.rest.length using Nat.strong_induction_on generalizing r rounds writer with
  | _ n ih =>
    subst hn
    cases hround : round U loads (rounds 0) r writer with
    | error e =>
      refine ⟨(e, writer), fun fuel hfuel => ?_⟩
      obtain ⟨fuel, rfl⟩ : ∃ m, fuel = m + 1 := ⟨fuel - 1, by omega⟩
      rw [start, hround]
    | ok left =>
      obtain ⟨r', writer'⟩ := left
      have hless := round_less U hround
      obtain ⟨result, hresult⟩ := ih _ hless (fun k => rounds (k + 1)) r' writer' rfl
      refine ⟨result, fun fuel hfuel => ?_⟩
      obtain ⟨fuel, rfl⟩ : ∃ m, fuel = m + 1 := ⟨fuel - 1, by omega⟩
      rw [start, hround]
      exact hresult fuel (by omega)

end McpServer

end Hermes
