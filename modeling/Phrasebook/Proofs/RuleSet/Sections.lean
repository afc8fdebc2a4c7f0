import Phrasebook.Proofs.RuleSet.Bytes
import Phrasebook.Proofs.RuleSet.Verified

namespace Phrasebook.RuleSet

theorem length_word (n : Nat) : (word n).length = 4 := length_littleEndian 4 n

theorem length_words (ns : List Nat) : (words ns).length = ns.length * 4 :=
  length_flatMap length_word

theorem length_signedWord (n : Int) : (signedWord n).length = 4 := length_littleEndian 4 _

theorem length_encodeRecord (head : Head) : (encodeRecord head).length = recordSize := by
  simp [encodeRecord, length_word, length_littleEndian, length_signedWord, recordSize]

theorem length_blockStarts (start : Nat) (lengths : List Nat) :
    (blockStarts start lengths).length = lengths.length := by
  induction lengths generalizing start with
  | nil => rfl
  | cons length rest ih => simp [blockStarts, ih]

/-- Blocks laid end to end lie at their starts. -/
theorem lies_blocks {buffer : Array UInt8} {start : Nat} {blocks : List (List UInt8)}
    (h : Lies buffer start blocks.flatten) {i : Nat} {block : List UInt8}
    (found : blocks[i]? = some block) :
    ∃ offset, (blockStarts start (blocks.map (·.length)))[i]? = some offset ∧
      Lies buffer offset block := by
  induction blocks generalizing start i with
  | nil => cases found
  | cons first rest ih =>
    rw [List.flatten_cons, lies_append] at h
    cases i with
    | zero =>
      obtain rfl := Option.some.inj found
      exact ⟨start, rfl, h.1⟩
    | succ i => exact ih h.2 found

namespace Blocks

variable (b : Blocks)

theorem length_header : b.header.length = headerSize := by
  simp [header, magic, length_words, headerSize]

/-- Every section lies at its offset. -/
structure Laid (buffer : Array UInt8) : Prop where
  magic : Lies buffer 0 magic
  header : Lies buffer 4 (words
    [version, b.withNames.toNat, b.symbolCount, headerSize, b.terminals.length, b.stringsAt,
      b.strings.length, b.recordsAt, b.records.length, b.setsAt, b.sets.length, b.offsetsAt,
      b.shards.length, b.structuralAt, b.filtersAt, b.filters.length, b.labelsAt, b.labels.length,
      b.namesAt, b.names.length, 0])
  terminals : Lies buffer headerSize b.terminals
  strings : Lies buffer b.stringsAt b.strings
  records : Lies buffer b.recordsAt b.recordBytes
  entries : Lies buffer b.entriesAt b.entryBytes
  sets : Lies buffer b.setsAt b.setBytes
  shards : Lies buffer b.shardsAt b.shardBytes
  offsets : Lies buffer b.offsetsAt b.offsetBytes
  structural : Lies buffer b.structuralAt b.structuralBytes
  filters : Lies buffer b.filtersAt b.filterBytes
  labels : Lies buffer b.labelsAt b.labelBytes
  names : Lies buffer b.namesAt b.nameBytes

theorem laid : b.Laid b.bytes.toArray := by
  have whole : Lies b.bytes.toArray 0 b.bytes := ⟨[], [], by simp, rfl⟩
  simp only [bytes, lies_append, length_header, List.length_append] at whole
  simp only [Nat.zero_add, ← Nat.add_assoc] at whole
  obtain ⟨⟨⟨⟨⟨⟨⟨⟨⟨⟨⟨header, terminals⟩, strings⟩, records⟩, entries⟩, sets⟩, shards⟩, offsets⟩,
    structural⟩, filters⟩, labels⟩, names⟩ := whole
  obtain ⟨magic, header⟩ := lies_append.mp header
  exact ⟨magic, header, terminals, strings, records, entries, sets, shards, offsets,
    structural, filters, labels, names⟩

section
variable {b} {buffer : Array UInt8}

theorem length_recordBytes : b.recordBytes.length = b.records.length * recordSize :=
  length_flatMap length_encodeRecord

theorem length_setBytes : b.setBytes.length = b.sets.length * 8 := by
  have uniform (x : Nat × List Int) : (word x.1 ++ word x.2.length).length = 8 := by
    simp [length_word]
  refine (length_flatMap uniform).trans ?_
  rw [List.length_zip, length_blockStarts, List.length_map, Nat.min_self]

theorem length_offsetBytes : b.offsetBytes.length = b.shards.length * 4 := by
  rw [offsetBytes, length_words, length_blockStarts, List.length_map]

theorem length_filterBytes : b.filterBytes.length = b.filters.length * 4 := by
  rw [filterBytes, length_words, List.length_map]

theorem length_labelBytes : b.labelBytes.length = b.labels.length * 8 :=
  length_flatMap (by simp [length_word])

theorem length_nameBytes : b.nameBytes.length = b.names.length * 8 :=
  length_flatMap (by simp [length_word])

/-- The header holds the offset and the size of each section. -/
structure Fits (b : Blocks) (layout : Layout) : Prop where
  terminals : layout.terminals = ⟨headerSize, b.terminals.length⟩
  strings : layout.strings = ⟨b.stringsAt, b.strings.length⟩
  records : layout.records = ⟨b.recordsAt, b.records.length⟩
  sets : layout.sets = ⟨b.setsAt, b.sets.length⟩
  filters : layout.filters = ⟨b.filtersAt, b.filters.length⟩
  labels : layout.labels = ⟨b.labelsAt, b.labels.length⟩
  names : layout.names = ⟨b.namesAt, b.names.length⟩

theorem Laid.header_eq (laid : b.Laid buffer) {i v : Nat}
    (found : [version, b.withNames.toNat, b.symbolCount, headerSize, b.terminals.length, b.stringsAt,
      b.strings.length, b.recordsAt, b.records.length, b.setsAt, b.sets.length, b.offsetsAt,
      b.shards.length, b.structuralAt, b.filtersAt, b.filters.length, b.labelsAt, b.labels.length,
      b.namesAt, b.names.length, 0][i]? = some v) (small : v < wordBound) :
    Layout.header buffer (4 + i * 4) = v := by
  have here := lies_flatMap length_word laid.header found
  rw [Layout.header, Buffer.wordAt?_word here small]
  rfl

theorem Laid.fits (laid : b.Laid buffer) (small : buffer.size < wordBound) {layout : Layout}
    (reads : layout.Reads buffer) : b.Fits layout := by
  have terminals := laid.terminals.le_size
  have strings := laid.strings.le_size
  have records := laid.records.le_size
  have sets := laid.sets.le_size
  have filters := laid.filters.le_size
  have labels := laid.labels.le_size
  have names := laid.names.le_size
  rw [length_recordBytes, recordSize] at records
  rw [length_setBytes] at sets
  rw [length_filterBytes] at filters
  rw [length_labelBytes] at labels
  rw [length_nameBytes] at names
  have field {i v : Nat} := laid.header_eq (i := i) (v := v)
  exact
    { terminals := by
        rw [reads.terminals, field (i := 3) rfl (by omega), field (i := 4) rfl (by omega)]
      strings := by
        rw [reads.strings, field (i := 5) rfl (by omega), field (i := 6) rfl (by omega)]
      records := by
        rw [reads.records, field (i := 7) rfl (by omega), field (i := 8) rfl (by omega)]
      sets := by
        rw [reads.sets, field (i := 9) rfl (by omega), field (i := 10) rfl (by omega)]
      filters := by
        rw [reads.filters, field (i := 14) rfl (by omega), field (i := 15) rfl (by omega)]
      labels := by
        rw [reads.labels, field (i := 16) rfl (by omega), field (i := 17) rfl (by omega)]
      names := by
        rw [reads.names, field (i := 18) rfl (by omega), field (i := 19) rfl (by omega)] }

end

end Blocks

end Phrasebook.RuleSet
