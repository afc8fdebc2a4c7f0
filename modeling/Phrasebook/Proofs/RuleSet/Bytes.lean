import Phrasebook.Proofs.Text.NulFree
import Phrasebook.RuleSet.Encode

namespace Phrasebook

/-- The bytes `part` lie at `offset` of the buffer. -/
def Lies (buffer : Array UInt8) (offset : Nat) (part : List UInt8) : Prop :=
  ∃ before after, buffer.toList = before ++ part ++ after ∧ before.length = offset

section
variable {buffer : Array UInt8} {offset : Nat}

theorem Lies.le_size {part : List UInt8} (h : Lies buffer offset part) :
    offset + part.length ≤ buffer.size := by
  obtain ⟨before, after, eq, rfl⟩ := h
  have size := congrArg List.length eq
  simp only [Array.length_toList, List.length_append] at size
  omega

theorem lies_append {p q : List UInt8} :
    Lies buffer offset (p ++ q) ↔ Lies buffer offset p ∧ Lies buffer (offset + p.length) q := by
  constructor
  · rintro ⟨before, after, eq, rfl⟩
    exact ⟨⟨before, q ++ after, by simp [eq], rfl⟩, ⟨before ++ p, after, by simp [eq], by simp⟩⟩
  · rintro ⟨⟨before, after, eq, rfl⟩, ⟨before', after', eq', length⟩⟩
    have same : before ++ p = before' ∧ after = q ++ after' := by
      apply List.append_inj
      · rw [← eq, eq', List.append_assoc]
      · simp [length]
    refine ⟨before, after', ?_, rfl⟩
    rw [eq, same.2]
    simp

theorem lies_flatMap {xs : List β} {f : β → List UInt8} {width : Nat}
    (uniform : ∀ x, (f x).length = width) (h : Lies buffer offset (xs.flatMap f)) {i : Nat} {x : β}
    (found : xs[i]? = some x) : Lies buffer (offset + i * width) (f x) := by
  induction xs generalizing offset i with
  | nil => cases found
  | cons y rest ih =>
    rw [List.flatMap_cons, lies_append, uniform] at h
    cases i with
    | zero =>
      obtain rfl := Option.some.inj found
      simpa using h.1
    | succ i =>
      have later := ih h.2 found
      have place : offset + width + i * width = offset + (i + 1) * width := by
        rw [Nat.succ_mul]
        omega
      exact place ▸ later

theorem length_flatMap {xs : List β} {f : β → List UInt8} {width : Nat}
    (uniform : ∀ x, (f x).length = width) : (xs.flatMap f).length = xs.length * width := by
  induction xs with
  | nil => simp
  | cons x rest ih =>
    rw [List.flatMap_cons, List.length_append, uniform, ih, List.length_cons, Nat.succ_mul]
    omega

theorem Lies.getElem {part : List UInt8} (h : Lies buffer offset part) {i : Nat} {byte : UInt8}
    (found : part[i]? = some byte) : buffer[offset + i]? = some byte := by
  obtain ⟨before, after, eq, rfl⟩ := h
  have inRange : i < part.length := (List.getElem?_eq_some_iff.mp found).1
  rw [← Array.getElem?_toList, eq, List.append_assoc, List.getElem?_append_right (by omega),
    Nat.add_sub_cancel_left, List.getElem?_append_left inRange]
  exact found

end

/-- A list read index by index. -/
theorem filterMap_getElem?_range (xs : List β) :
    (List.range xs.length).filterMap (xs[·]?) = xs := by
  have each : (List.range xs.length).map (xs[·]?) = xs.map some := by
    apply List.ext_getElem
    · simp
    · intro j _ _
      simp
  calc (List.range xs.length).filterMap (xs[·]?)
    _ = ((List.range xs.length).map (xs[·]?)).filterMap id := by simp [List.filterMap_map]
    _ = xs := by
      rw [each, List.filterMap_map]
      exact List.filterMap_some

theorem length_littleEndian (width n : Nat) : (littleEndian width n).length = width := by
  induction width generalizing n with
  | zero => rfl
  | succ width ih => simp [littleEndian, ih]

namespace Buffer

variable {buffer : Array UInt8} {offset : Nat}

theorem wordAt?_of_lies {n : Nat} (h : Lies buffer offset (RuleSet.word n)) :
    wordAt? buffer offset = some (n % wordBound) := by
  have room : offset + 4 ≤ buffer.size := by
    have := h.le_size
    rwa [RuleSet.word, length_littleEndian] at this
  have at0 : buffer[offset]? = _ := h.getElem (i := 0) rfl
  have at1 : buffer[offset + 1]? = _ := h.getElem (i := 1) rfl
  have at2 : buffer[offset + 2]? = _ := h.getElem (i := 2) rfl
  have at3 : buffer[offset + 3]? = _ := h.getElem (i := 3) rfl
  simp only [Array.getElem?_eq_some_iff] at at0 at1 at2 at3
  obtain ⟨_, at0⟩ := at0
  obtain ⟨_, at1⟩ := at1
  obtain ⟨_, at2⟩ := at2
  obtain ⟨_, at3⟩ := at3
  rw [wordAt?, dif_pos room, at0, at1, at2, at3]
  simp only [UInt8.toNat_ofNat', wordBound, Option.some.injEq]
  omega

/-- A word that is not too large is read as it was written. -/
theorem wordAt?_word {n : Nat} (h : Lies buffer offset (RuleSet.word n)) (small : n < wordBound) :
    wordAt? buffer offset = some n := by
  rw [wordAt?_of_lies h, Nat.mod_eq_of_lt small]

theorem wordAt?_signedWord {n : Int} (h : Lies buffer offset (signedWord n))
    (low : -(2 ^ 31) ≤ n) (high : n < 2 ^ 31) :
    (wordAt? buffer offset).map toSigned = some n := by
  have word : wordAt? buffer offset = some ((n % wordBound).toNat % wordBound) := wordAt?_of_lies h
  rw [word, Option.map_some, Option.some.injEq]
  generalize value : (n % wordBound).toNat % wordBound = m
  rw [wordBound] at value
  rw [toSigned, wordBound]
  split
  · omega
  · omega

theorem longAt?_of_lies {n : Nat} (h : Lies buffer offset (littleEndian 8 n)) :
    longAt? buffer offset = some (n % 2 ^ 64) := by
  have parts : littleEndian 8 n = RuleSet.word n ++ RuleSet.word (n / wordBound) := by
    simp [RuleSet.word, littleEndian, wordBound, Nat.div_div_eq_div_mul]
  rw [parts, lies_append, RuleSet.word, length_littleEndian] at h
  obtain ⟨low, high⟩ := h
  rw [longAt?, wordAt?_of_lies low, wordAt?_of_lies high]
  simp only [wordBound, Option.some.injEq]
  omega

/-- A zero byte after bytes that are not zero is the first one. -/
theorem zeroFrom?_of_lies {part : List UInt8} (h : Lies buffer offset (part ++ [0]))
    (solid : 0 ∉ part) {stop : Nat} (inside : offset + part.length < stop) :
    zeroFrom? buffer offset stop = some (offset + part.length) := by
  induction part generalizing offset with
  | nil =>
    have found : buffer[offset]? = some 0 := h.getElem (i := 0) rfl
    have below : offset < stop := by simpa using inside
    rw [zeroFrom?, if_pos below, found]
    rfl
  | cons byte rest ih =>
    have found : buffer[offset]? = some byte := h.getElem (i := 0) rfl
    have below : offset < stop := by
      rw [List.length_cons] at inside
      omega
    have nonzero : ¬ (byte == 0) = true := by
      intro zero
      exact solid (by simp [beq_iff_eq.mp zero])
    rw [zeroFrom?, if_pos below, found]
    simp only [nonzero, Bool.false_eq_true, ↓reduceIte]
    have split : Lies buffer offset [byte] ∧ Lies buffer (offset + 1) (rest ++ [0]) := by
      rw [← List.singleton_append, List.append_assoc] at h
      exact lies_append.mp h
    rw [ih split.2 (fun zero => solid (List.mem_cons_of_mem _ zero))
      (by rw [List.length_cons] at inside; omega)]
    rw [List.length_cons, Nat.add_assoc, Nat.add_comm 1]

theorem extract_of_lies {part : List UInt8} (h : Lies buffer offset part) :
    buffer.extract offset (offset + part.length) = part.toArray := by
  obtain ⟨before, after, eq, rfl⟩ := h
  apply Array.ext'
  rw [Array.toList_extract, eq, List.extract_eq_take_drop]
  simp [List.append_assoc]

end Buffer

theorem toList_loop (bytes : ByteArray) (i : Nat) (done : List UInt8) :
    ByteArray.toList.loop bytes i done = done.reverse ++ bytes.data.toList.drop i := by
  fun_induction ByteArray.toList.loop bytes i done with
  | case1 i done inRange ih =>
    have size : i < bytes.data.toList.length := inRange
    have here : bytes.get! i = bytes.data.toList[i] := getElem!_pos bytes.data i inRange
    rw [ih, here, List.reverse_cons, List.append_assoc, List.singleton_append,
      List.getElem_cons_drop]
  | case2 i done outside =>
    have size : bytes.data.toList.length ≤ i := Nat.le_of_not_lt outside
    rw [List.drop_eq_nil_of_le size, List.append_nil]

theorem toList_eq_data (bytes : ByteArray) : bytes.toList = bytes.data.toList := by
  rw [ByteArray.toList, toList_loop]
  rfl

/-- Only NUL is encoded by a zero byte. -/
theorem zero_notMem_utf8EncodeChar {c : Char} (h : c ≠ '\x00') : 0 ∉ String.utf8EncodeChar c := by
  have positive : 0 < c.val.toNat := by
    apply Nat.pos_of_ne_zero
    intro zero
    apply h
    apply Char.ext
    exact UInt32.toNat_inj.mp zero
  have nonzero {n : Nat} (low : 0 < n) (high : n < 256) : (0 : UInt8) ≠ UInt8.ofNat n := by
    intro eq
    have := congrArg UInt8.toNat eq
    rw [UInt8.toNat_ofNat', Nat.mod_eq_of_lt high] at this
    exact Nat.ne_of_lt low this
  unfold String.utf8EncodeChar
  generalize c.val.toNat = v at positive
  dsimp only
  split
  · simp only [List.mem_singleton]
    exact nonzero positive (by omega)
  · split
    · simp only [List.mem_cons, List.not_mem_nil, or_false, not_or]
      exact ⟨nonzero (by omega) (by omega), nonzero (by omega) (by omega)⟩
    · split
      · simp only [List.mem_cons, List.not_mem_nil, or_false, not_or]
        exact ⟨nonzero (by omega) (by omega), nonzero (by omega) (by omega),
          nonzero (by omega) (by omega)⟩
      · simp only [List.mem_cons, List.not_mem_nil, or_false, not_or]
        exact ⟨nonzero (by omega) (by omega), nonzero (by omega) (by omega),
          nonzero (by omega) (by omega), nonzero (by omega) (by omega)⟩

theorem zero_notMem_toUTF8 {text : String} (h : NulFree text) : 0 ∉ text.toUTF8.toList := by
  rw [toList_eq_data, String.toUTF8_eq_toByteArray, ← String.utf8Encode_toList, List.utf8Encode,
    List.toList_data_toByteArray]
  intro zero
  obtain ⟨c, member, isByte⟩ := List.mem_flatMap.mp zero
  exact zero_notMem_utf8EncodeChar (fun nul => h (nul ▸ member)) isByte

/-- A text without NUL that lies in a pool is read back. -/
theorem poolText?_of_lies {buffer : Array UInt8} {pool : RuleSet.Table} {offset : Nat}
    {text : String} (clean : NulFree text)
    (h : Lies buffer (pool.offset + offset) (RuleSet.Pool.bytesOf text))
    (inside : offset + text.toUTF8.toList.length < pool.count) :
    RuleSet.poolText? buffer pool offset = some text := by
  have before : pool.offset + offset + text.toUTF8.toList.length < pool.offset + pool.count := by
    omega
  have stop := Buffer.zeroFrom?_of_lies h (zero_notMem_toUTF8 clean) before
  have part := Buffer.extract_of_lies (lies_append.mp h).1
  have bytes : (⟨text.toUTF8.toList.toArray⟩ : ByteArray) = text.toByteArray := by
    rw [toList_eq_data]
    rfl
  rw [RuleSet.poolText?, stop]
  simp only [Buffer.textBetween?]
  rw [part, bytes, String.fromUTF8?, dif_pos text.isValidUTF8]
  rfl

namespace RuleSet.Pool

theorem length_bytesOf (text : String) : (bytesOf text).length = text.utf8ByteSize + 1 := by
  rw [bytesOf, List.length_append, toList_eq_data]
  rfl

theorem keys_starts (start : Nat) (texts : List String) : (starts start texts).map (·.1) = texts := by
  induction texts generalizing start with
  | nil => rfl
  | cons text rest ih => simp [starts, ih]

/-- Each text lies where it starts. -/
theorem mem_starts {start offset : Nat} {texts : List String} {text : String}
    (member : (text, offset) ∈ starts start texts) :
    ∃ before after, texts.flatMap bytesOf = before ++ bytesOf text ++ after ∧
      start + before.length = offset := by
  induction texts generalizing start with
  | nil => cases member
  | cons first rest ih =>
    rw [starts, List.mem_cons] at member
    rw [List.flatMap_cons]
    rcases member with same | later
    · obtain ⟨rfl, rfl⟩ := Prod.mk.inj same
      exact ⟨[], rest.flatMap bytesOf, rfl, rfl⟩
    · obtain ⟨before, after, eq, place⟩ := ih later
      refine ⟨bytesOf first ++ before, after, by simp [eq], ?_⟩
      rw [List.length_append, length_bytesOf]
      omega

/-- A text of the pool lies at its offset. -/
theorem lies_ofTexts {buffer : Array UInt8} {start : Nat} {texts : List String} {text : String}
    (h : Lies buffer start (ofTexts texts).bytes) (member : text ∈ texts) :
    Lies buffer (start + (ofTexts texts).offset text) (bytesOf text) ∧
      (ofTexts texts).offset text + (bytesOf text).length ≤ (ofTexts texts).bytes.length := by
  have inSorted : text ∈ (Std.TreeSet.ofList texts).toList := by
    rw [Std.TreeSet.mem_toList, Std.TreeSet.mem_ofList]
    simpa using member
  have isKey : text ∈ (starts 0 (Std.TreeSet.ofList texts).toList).map (·.1) := by
    rwa [keys_starts]
  obtain ⟨⟨_, offset⟩, isStart, rfl⟩ := List.mem_map.mp isKey
  have distinct : (starts 0 (Std.TreeSet.ofList texts).toList).Pairwise
      fun a b => ¬ compare a.1 b.1 = .eq := by
    rw [← List.pairwise_map (f := Prod.fst) (R := fun a b => ¬ compare a b = .eq)]
    exact keys_starts 0 _ ▸ Std.TreeSet.distinct_toList
  have place : (ofTexts texts).offset _ = offset :=
    Std.TreeMap.getD_ofList_of_mem Std.ReflCmp.compare_self distinct isStart
  obtain ⟨before, after, eq, length⟩ := mem_starts isStart
  rw [Nat.zero_add] at length
  have whole : (ofTexts texts).bytes = before ++ bytesOf _ ++ after := eq
  rw [place, whole, ← length]
  constructor
  · rw [whole, List.append_assoc, lies_append, lies_append] at h
    exact h.2.1
  · simp only [List.length_append]
    omega

/-- A text of the pool is read back at its offset. -/
theorem poolText?_ofTexts {buffer : Array UInt8} {pool : Table} {texts : List String} {text : String}
    (h : Lies buffer pool.offset (ofTexts texts).bytes)
    (count : pool.count = (ofTexts texts).bytes.length) (member : text ∈ texts)
    (clean : NulFree text) :
    (ofTexts texts).offset text < buffer.size ∧
      poolText? buffer pool ((ofTexts texts).offset text) = some text := by
  obtain ⟨here, inside⟩ := lies_ofTexts h member
  have size := h.le_size
  have length : (bytesOf text).length = text.toUTF8.toList.length + 1 := by
    simp [bytesOf]
  exact ⟨by omega, poolText?_of_lies clean here (by omega)⟩

end RuleSet.Pool

end Phrasebook
