import Defuse.Proofs.NameRoundTrip
import Defuse.Proofs.Reading
import Defuse.Proofs.Substitution

namespace Defuse

open Archive.Zip

/-!
# Archives are read as they were written

An archive that is written comes back as it was, unless its numbers need more room than their
words have, or its bytes are taken for an end record before the real one.

* `Stamp.IsDos.ofDos?_toDos` — a time;
* `Archive.Zip.Header.read_write`, `Archive.Zip.Header.readGap_writeEntry` — the two headers of
  an entry;
* `Archive.Entry.IsWritten.entryAt?` — an entry, whatever stands around it;
* `Archive.Zip.EndRecord.read_write` — the end record;
* `Archive.IsWritten.read?_write` — the archive;
* `Archive.IsPlain.read?_write` — a rebuilt archive.
-/

/-! ### Times -/

namespace Stamp

/-- A stamp of a date and a time that fill a word each. -/
def IsDos (s : Stamp) : Prop := ∃ date time, date < 65536 ∧ ofDos? date time = some s

namespace IsDos

variable {s : Stamp}

/-- The words of a stamp are those it was read from, but for a second 60, and are read as it. -/
theorem words {date time : Nat} (h : ofDos? date time = some s) :
    s.toDos = (date, time / 32 * 32 + min (time % 32) 29) ∧ time < 49152 ∧
      ofDos? date (time / 32 * 32 + min (time % 32) 29) = some s := by
  simp only [ofDos?, Option.ite_none_right_eq_some, Option.some.injEq] at h
  obtain ⟨⟨hmonth, hmonth', hday, hday', hhour, hminute, hsecond⟩, rfl⟩ := h
  -- the year is counted from 1980, so it survives the subtraction
  have hdate : ((1980 + date / 512 : Nat) : Int).toNat - 1980 = date / 512 := by omega
  refine ⟨Prod.ext ?_ ?_, by omega, ?_⟩
  · show (((1980 + date / 512 : Nat) : Int).toNat - 1980) * 512 + date / 32 % 16 * 32 +
      date % 32 = date
    omega
  · show time / 2048 * 2048 + time / 32 % 64 * 32 + min (2 * (time % 32)) 58 / 2 =
      time / 32 * 32 + min (time % 32) 29
    omega
  -- the seconds are cut to 58 and the rest of the clock stays, so it is read to the same time
  · generalize hclock : time / 32 * 32 + min (time % 32) 29 = clock
    have hhours : clock / 2048 = time / 2048 := by omega
    have hminutes : clock / 32 % 64 = time / 32 % 64 := by omega
    have hseconds : clock % 32 = min (time % 32) 29 := by omega
    have hlast : min (2 * min (time % 32) 29) 58 = min (2 * (time % 32)) 58 := by omega
    simp only [ofDos?, hhours, hminutes, hseconds, hlast]
    rw [if_pos ⟨hmonth, hmonth', hday, hday', hhour, hminute, by omega⟩]

/-- Its words have room for a stamp. -/
theorem toDos_lt (h : s.IsDos) : s.toDos.1 < 65536 ∧ s.toDos.2 < 65536 := by
  obtain ⟨date, time, hdate, hread⟩ := h
  obtain ⟨hwords, htime, -⟩ := words hread
  rw [hwords]
  exact ⟨hdate, by show time / 32 * 32 + min (time % 32) 29 < 65536; omega⟩

/-- A stamp is read from its words. -/
theorem ofDos?_toDos (h : s.IsDos) : ofDos? s.toDos.1 s.toDos.2 = some s := by
  obtain ⟨date, time, -, hread⟩ := h
  obtain ⟨hwords, -, hagain⟩ := words hread
  rw [hwords]
  exact hagain

theorem dosEpoch : dosEpoch.IsDos := ⟨33, 0, by decide, rfl⟩

end IsDos

/-- It is enough to look at its own words. -/
theorem isDos_iff {s : Stamp} :
    s.IsDos ↔ s.toDos.1 < 65536 ∧ ofDos? s.toDos.1 s.toDos.2 = some s :=
  ⟨fun h => ⟨h.toDos_lt.1, h.ofDos?_toDos⟩, fun h => ⟨_, _, h⟩⟩

instance (s : Stamp) : Decidable s.IsDos := decidable_of_iff _ isDos_iff.symm

end Stamp

namespace Archive

/-! ### One part after another -/

section

variable {ε α β : Type} {short : ε} {rest : Bytes}

/-- A number of some bytes is read off their front, reduced to what they have room for. -/
theorem bind_word (width n : Nat) (f : Nat → Reader ε β) (rest : Bytes) :
    (Word.read short width >>= f) (Word.bytes width n ++ rest) = f (n % 256 ^ width) rest := by
  show Except.bind (Word.read short width (Word.bytes width n ++ rest)) _ = _
  rw [Word.read_bytes]
  rfl

theorem bind_mark (m : Mark) (f : Unit → Reader Unit β) (rest : Bytes) :
    (m.read >>= f) (m.bytes ++ rest) = f () rest := by
  show Except.bind (m.read (m.bytes ++ rest)) _ = _
  rw [Mark.read_bytes]
  rfl

/-- As many bytes as are asked for are read off the front. -/
theorem bind_bytes {front : Bytes} {n : Nat} (h : front.length = n) (f : Bytes → Reader ε β)
    (rest : Bytes) : (Reader.bytes short n >>= f) (front ++ rest) = f front rest := by
  show Except.bind (Reader.bytes short n (front ++ rest)) _ = _
  rw [← h, Reader.bytes_append]
  rfl

theorem bind_no_bytes (f : Bytes → Reader ε β) (rest : Bytes) :
    (Reader.bytes short 0 >>= f) rest = f [] rest :=
  bind_bytes List.length_nil f rest

/-- A row of items that are each read back. -/
theorem many_flatMap {item : Reader ε α} {w : α → Bytes} {as : List α}
    (h : ∀ a ∈ as, ∀ rest, item (w a ++ rest) = .ok (a, rest)) (rest : Bytes) :
    Reader.many item as.length (as.flatMap w ++ rest) = .ok (as, rest) := by
  induction as with
  | nil => rfl
  | cons a as ih =>
    have hfirst := h a List.mem_cons_self (as.flatMap w ++ rest)
    have hothers := ih fun b hb => h b (List.mem_cons_of_mem _ hb)
    rw [List.length_cons, Reader.many_succ, List.flatMap_cons, List.append_assoc, hfirst]
    simp only [hothers]
    rfl

end

/-! ### Headers -/

namespace Zip.Header

/-- A header whose numbers its words have room for, of an entry that is not encrypted, without a
comment. -/
structure Fits (h : Header) : Prop where
  system : h.system < 256
  flags : h.flags < 65536
  method : h.method < 65536
  unsealed : h.method ≠ sealedMethod
  time : h.time < 65536
  date : h.date < 65536
  checksum : h.checksum < 4294967296
  dataSize : h.dataSize < 4294967296
  size : h.size < 4294967296
  fileAttributes : h.fileAttributes < 4294967296
  start : h.start < 4294967296
  name : h.name.length < 65536
  comment : h.comment = ""
  isSealed : h.isSealed = false

/-- A number below the limit is written as it is. -/
theorem clamped_of_lt {n : Nat} (h : n < 4294967296) : clamped n = Word.bytes 4 n := by
  have hlimit : Word.limit 4 = 4294967295 := rfl
  rw [clamped, hlimit, Nat.min_eq_left (by omega)]

/-- The header of a small entry needs no field for wide sizes. -/
theorem Fits.wideField {h : Header} (hfits : h.Fits) : h.wideField = [] := by
  have hsize := hfits.size
  have hdata := hfits.dataSize
  have hlimit : Word.limit 4 = 4294967295 := rfl
  have hnarrow : h.isWide = false := by
    rw [isWide, hlimit, Bool.or_eq_false_iff, decide_eq_false_iff_not, decide_eq_false_iff_not]
    omega
  rw [Header.wideField, hnarrow]
  rfl

/-- A header of the directory is read as it was written. -/
theorem read_write {h : Header} (hfits : h.Fits) (rest : Bytes) :
    Header.read (h.write ++ rest) = .ok (h, rest) := by
  -- without fields behind the name, each read takes what the write has put there
  have hplain : readPlain (h.write ++ rest) = .ok ((h, []), rest) := by
    have hcomment : Text.Utf8.encode h.comment = [] := by rw [hfits.comment]; rfl
    have hhalf {n : Nat} (hn : n < 65536) : n % 256 ^ 2 = n := Nat.mod_eq_of_lt hn
    have hword {n : Nat} (hn : n < 4294967296) : n % 256 ^ 4 = n := Nat.mod_eq_of_lt hn
    have hsystem : (256 * h.system + formatVersion) % 256 ^ 2 / 256 = h.system := by
      have hlt := hfits.system
      have hversion : formatVersion = 45 := rfl
      omega
    have hempty : textOf h.flags [] = h.comment := by
      rw [hfits.comment, textOf]
      split
      · exact Text.Utf8.decode_encode ""
      · rfl
    simp only [write, common, clamped_of_lt hfits.dataSize, clamped_of_lt hfits.size,
      clamped_of_lt hfits.start, hfits.wideField, hcomment, List.length_nil, List.append_nil,
      List.append_assoc, readPlain, bind_mark, bind_word, hsystem, hhalf hfits.flags,
      hhalf hfits.method, hhalf hfits.time, hhalf hfits.date, hword hfits.checksum,
      hword hfits.dataSize, hword hfits.size, hword hfits.fileAttributes, hword hfits.start,
      hhalf hfits.name, bind_bytes rfl, Nat.zero_mod, bind_no_bytes, hempty]
    show Except.ok ((_, _), rest) = _
    rw [← hfits.isSealed]
  -- with no field to read, only an entry of the sealed method could be refused
  have hfields : h.withFields? [] = some h := by
    rw [withFields?_nil]
    exact if_neg fun hsealed => hfits.unsealed hsealed.1
  refine Reader.bind_eq_ok.mpr ⟨_, _, hplain, ?_⟩
  simp only [hfields]
  rfl

/-- What stands between the header of an entry and its data is found. -/
theorem readGap_writeEntry {h : Header} (hfits : h.Fits) (data rest : Bytes) :
    readGap (h.writeEntry data ++ rest) = .ok (h.name.length, h.name ++ (data ++ rest)) := by
  let front := Word.bytes 2 h.neededVersion ++ Word.bytes 2 h.flags ++ Word.bytes 2 h.method ++
    Word.bytes 2 h.time ++ Word.bytes 2 h.date ++ Word.bytes 4 h.checksum ++
    clamped h.dataSize ++ clamped h.size
  have hfront : front.length = 22 := by
    simp only [front, clamped, List.length_append, Word.length_bytes]
  have hentry : h.writeEntry data ++ rest = Mark.entry.bytes ++ (front ++
      (Word.bytes 2 h.name.length ++ (Word.bytes 2 0 ++ (h.name ++ (data ++ rest))))) := by
    simp only [writeEntry, common, hfits.wideField, front, List.length_nil, List.append_nil,
      List.append_assoc]
  have hname : h.name.length % 256 ^ 2 = h.name.length := Nat.mod_eq_of_lt hfits.name
  rw [hentry, readGap, bind_mark, bind_bytes hfront, bind_word, bind_word, hname]
  rfl

end Zip.Header

/-! ### Entries -/

/-- An entry as it is written: it is not encrypted, its time and its kind are known, and the
words of its headers have room for its numbers. -/
structure Entry.IsWritten (e : Entry) : Prop where
  method : Method.ofCode e.method.code = e.method
  unsealed : e.method.code.toNat ≠ Header.sealedMethod
  plain : e.isEncrypted = false
  modified : ∃ s : Stamp, e.modified = some s ∧ s.IsDos
  mode : ∃ mode, e.mode = some mode ∧ 0 < mode ∧ mode < 65536
  size : e.size < 4294967296
  complete : e.dataSize = e.data.length
  name : (Text.Utf8.encode e.name).length < 65536

namespace Entry

/-- The flags fit in two bytes, and none of them says that the entry is encrypted. -/
theorem flags_lt (e : Entry) : e.flags < 65536 ∧ e.flags.testBit encryptedFlag = false := by
  unfold Entry.flags
  split <;> decide

namespace IsWritten

variable {e : Entry}

/-- The words of the headers have room for their numbers. -/
theorem fits (h : e.IsWritten) {start : Nat} (hstart : start < 4294967296)
    (hdata : e.data.length < 4294967296) : (e.header start).Fits := by
  -- each field has the room that the format gives it
  obtain ⟨s, hs, hdos⟩ := h.modified
  obtain ⟨hdate, htime⟩ := hdos.toDos_lt
  obtain ⟨mode, hmode, -, hlt⟩ := h.mode
  have hstamp : e.modified.getD .dosEpoch = s := by rw [hs]; rfl
  have hkind : e.mode.getD 0 = mode := by rw [hmode]; rfl
  exact
    { system := by
        show unixSystem < 256
        decide
      flags := e.flags_lt.1
      method := e.method.code.toNat_lt
      unsealed := h.unsealed
      time := by rw [header, hstamp]; exact htime
      date := by rw [header, hstamp]; exact hdate
      checksum := e.checksum.toNat_lt
      dataSize := by
        show e.dataSize < _
        rw [h.complete]
        exact hdata
      size := h.size
      fileAttributes := by
        show e.mode.getD 0 * 65536 < _
        rw [hkind]
        omega
      start := hstart
      name := h.name
      comment := rfl
      isSealed := rfl }

/-- The entry that the header of an entry tells of. -/
theorem of_header (h : e.IsWritten) (start : Nat) :
    let k := e.header start
    k.nameText = e.name ∧ Method.ofCode k.method.toUInt16 = e.method ∧
      (k.flags.testBit encryptedFlag || k.isSealed) = e.isEncrypted ∧
      Stamp.ofDos? k.date k.time = e.modified ∧ k.checksum.toUInt32 = e.checksum ∧
      k.mode = e.mode := by
  -- part by part, what the header says of the entry is what the entry is
  obtain ⟨s, hs, hdos⟩ := h.modified
  obtain ⟨mode, hmode, hpos, -⟩ := h.mode
  refine ⟨textOf_encode e, ?_, ?_, ?_, ?_, ?_⟩
  · show Method.ofCode (UInt16.ofNat e.method.code.toNat) = _
    rw [UInt16.ofNat_toNat, h.method]
  · show (e.flags.testBit encryptedFlag || false) = _
    rw [e.flags_lt.2, h.plain]
    rfl
  · show Stamp.ofDos? (e.modified.getD .dosEpoch).toDos.1 (e.modified.getD .dosEpoch).toDos.2 = _
    rw [hs]
    exact hdos.ofDos?_toDos
  · exact UInt32.ofNat_toNat
  · have hattributes : (e.header start).fileAttributes = mode * 65536 := by
      show e.mode.getD 0 * 65536 = _
      rw [hmode]
      rfl
    have hsystem : (e.header start).system = unixSystem := rfl
    rw [Header.mode, hattributes, hsystem, if_neg (by omega), if_pos rfl, hmode,
      Nat.mul_div_cancel _ (by decide)]

/-- An entry is read from its header and its data, whatever stands around them. -/
theorem entryAt? (h : e.IsWritten) {before behind : Bytes} {s : Site} (hshift : s.shift = 0)
    (hsite : before.length + e.length ≤ s.start) (hstart : s.start < 4294967296) :
    Zip.entryAt? (before ++ (e.write ++ behind)) s (e.header before.length) = some e := by
  -- the header stands in front of the data, and ends where the data starts
  have hlength : e.length = Header.entryLength + (e.header before.length).name.length +
      (e.header before.length).wideField.length + e.data.length := rfl
  have hleast : Header.entryLength = 30 := rfl
  have hfits : (e.header before.length).Fits := h.fits (by omega) (by omega)
  have hgap := Header.readGap_writeEntry hfits e.data behind
  have hplace : s.shift + (e.header before.length).start = before.length := by
    rw [hshift, Nat.zero_add]
    rfl
  have hdrop : (before ++ (e.write ++ behind)).drop before.length =
      (e.header before.length).writeEntry e.data ++ behind := List.drop_left
  obtain ⟨hname, hmethod, hencrypted, hmodified, hchecksum, hmode⟩ := h.of_header before.length
  have hdata : ((e.header before.length).name ++ (e.data ++ behind)).drop
      (e.header before.length).name.length = e.data ++ behind := List.drop_left
  have hcomplete : (e.header before.length).dataSize = e.data.length := h.complete
  simp only [Zip.entryAt?, hplace, hdrop, hgap, hname, hmethod, hencrypted, hmodified, hchecksum,
    hmode, hdata, hcomplete, List.take_left]
  rw [if_neg (by omega), if_neg (by omega), ← h.complete]
  rfl

end IsWritten

end Entry

/-! ### Directories -/

/-- Entries with the places where they start, the first one at a place. -/
def placedFrom (place : Nat) : List Entry → List (Nat × Entry)
  | [] => []
  | e :: es => (place, e) :: placedFrom (place + e.length) es

/-- The places that are counted up while the entries are written are those counted from the
front. -/
theorem placed_eq (es : List Entry) : placed es = placedFrom 0 es := by
  have hplaced (place : Nat) (acc : List (Nat × Entry)) :
      -- on what has been placed so far, backwards
      (es.foldl (fun p e => (p.1 + e.length, (p.1, e) :: p.2)) (place, acc)).2 =
        (placedFrom place es).reverse ++ acc := by
    induction es generalizing place acc with
    | nil => rfl
    | cons e es ih =>
      rw [List.foldl_cons, ih, placedFrom, List.reverse_cons, List.append_assoc,
        List.singleton_append]
  have hall := congrArg List.reverse (hplaced 0 [])
  rw [List.append_nil, List.reverse_reverse] at hall
  exact hall

/-- Each entry has one place. -/
@[simp] theorem length_placedFrom (place : Nat) (es : List Entry) :
    (placedFrom place es).length = es.length := by
  induction es generalizing place with
  | nil => rfl
  | cons e es ih => rw [placedFrom, List.length_cons, ih, List.length_cons]

/-- The written entries take the sum of their lengths. -/
theorem length_flatMap_write (es : List Entry) :
    (es.flatMap Entry.write).length = (es.map Entry.length).sum := by
  induction es with
  | nil => rfl
  | cons e es ih => rw [List.flatMap_cons, List.length_append, ih, Entry.length_write,
      List.map_cons, List.sum_cons]

/-- All entries are read from their headers, whatever stands around them. -/
theorem mapM_entryAt? {es : List Entry} (hes : ∀ e ∈ es, e.IsWritten) {s : Site}
    (hshift : s.shift = 0) (before behind : Bytes)
    (hsite : before.length + (es.flatMap Entry.write).length ≤ s.start)
    (hstart : s.start < 4294967296) :
    ((placedFrom before.length es).map fun (place, e) => e.header place).mapM
      (Zip.entryAt? (before ++ (es.flatMap Entry.write ++ behind)) s) = some es := by
  induction es generalizing before with
  | nil => rfl
  | cons e es ih =>
    rw [List.flatMap_cons, List.length_append, Entry.length_write] at hsite
    have hfirst : Zip.entryAt? (before ++ (e.write ++ (es.flatMap Entry.write ++ behind))) s
        (e.header before.length) = some e :=
      (hes e List.mem_cons_self).entryAt? hshift (by omega) hstart
    -- the first entry is one more of those in front of the others
    have hplace : (before ++ e.write).length = before.length + e.length := by
      rw [List.length_append, Entry.length_write]
    have hothers : ((placedFrom (before ++ e.write).length es).map
        fun (place, e) => e.header place).mapM
          (Zip.entryAt? (before ++ e.write ++ (es.flatMap Entry.write ++ behind)) s) = some es :=
      ih (fun e he => hes e (List.mem_cons_of_mem _ he)) _ (by omega)
    rw [hplace, List.append_assoc] at hothers
    rw [placedFrom, List.map_cons, List.mapM_cons, List.flatMap_cons, List.append_assoc, hfirst]
    simp only [hothers]
    rfl

/-- Entries of other names come in front of those that have been added. -/
theorem foldl_addEntry (es acc : List Entry) (h : ((acc.reverse ++ es).map (·.name)).Nodup) :
    es.foldl addEntry acc = es.reverse ++ acc := by
  induction es generalizing acc with
  | nil => rfl
  | cons e es ih =>
    have hsplit : acc.reverse ++ e :: es = (e :: acc).reverse ++ es := by
      rw [List.reverse_cons, List.append_assoc, List.singleton_append]
    -- the next entry has another name than those that have been added
    have hnew : acc.any (·.name = e.name) = false := by
      rw [List.any_eq_false]
      intro other hother
      rw [List.map_append, List.map_cons] at h
      have hne := (List.nodup_append.mp h).2.2 other.name
        (List.mem_map_of_mem (List.mem_reverse.mpr hother)) e.name List.mem_cons_self
      simpa using hne
    rw [hsplit] at h
    rw [List.foldl_cons, addEntry, hnew, if_neg Bool.false_ne_true, ih _ h, List.reverse_cons,
      List.append_assoc, List.singleton_append]

/-- Entries of distinct names stay as they are. -/
theorem distinct_eq {es : List Entry} (h : (es.map (·.name)).Nodup) : distinct es = es := by
  rw [distinct, foldl_addEntry es [] h, List.append_nil, List.reverse_reverse]

/-! ### Ends -/

/-- The marks behind the front of a byte string are those of the bytes behind it. -/
theorem exists_places_append (m : Mark) (place : Nat) (front bs : Bytes) :
    ∃ l, m.places place (front ++ bs) = l ++ m.places (place + front.length) bs := by
  induction front generalizing place with
  | nil => exact ⟨[], rfl⟩
  | cons b front ih =>
    obtain ⟨l, hl⟩ := ih (place + 1)
    have hplace : place + 1 + front.length = place + (b :: front).length := by
      rw [List.length_cons]
      omega
    rw [hplace] at hl
    rw [List.cons_append, Mark.places, hl]
    by_cases hmark : m.bytes.isPrefixOf (b :: (front ++ bs)) = true
    · exact ⟨(place, b :: (front ++ bs)) :: l, by rw [if_pos hmark, List.cons_append]⟩
    · exact ⟨l, if_neg hmark⟩

/-- Bytes behind a mark are found at its place. -/
theorem places_mark (m : Mark) (place : Nat) (bs : Bytes) :
    m.places place (m.bytes ++ bs) =
      (place, m.bytes ++ bs) :: m.places (place + 1) (m.bytes ++ bs).tail := by
  have hmark : m.bytes.isPrefixOf (m.bytes ++ bs) = true :=
    List.isPrefixOf_iff_prefix.mpr (List.prefix_append _ _)
  cases m <;> exact if_pos hmark

/-- Whether a mark stands in a byte string does not depend on where the string starts. -/
theorem places_eq_nil {m : Mark} {place : Nat} {bs : Bytes} (h : m.places place bs = [])
    (other : Nat) : m.places other bs = [] := by
  induction bs generalizing place other with
  | nil => rfl
  | cons b bs ih =>
    by_cases hmark : m.bytes.isPrefixOf (b :: bs) = true
    · rw [Mark.places, if_pos hmark] at h
      cases h
    · rw [Mark.places, if_neg hmark] at h ⊢
      exact ih h (other + 1)

namespace Zip.EndRecord

/-- An end record whose numbers its words have room for. -/
structure Fits (r : EndRecord) : Prop where
  part : r.part < 65536
  directoryPart : r.directoryPart < 65536
  entriesHere : r.entriesHere < 65536
  entries : r.entries < 65536
  directorySize : r.directorySize < 4294967296
  directoryStart : r.directoryStart < 4294967296
  comment : r.comment.length < 65536

/-- An end record is read as it was written. -/
theorem read_write {r : EndRecord} (hfits : r.Fits) (rest : Bytes) :
    EndRecord.read (r.write ++ rest) = .ok (r, rest) := by
  have hhalf {n : Nat} (hn : n < 65536) : n % 256 ^ 2 = n := Nat.mod_eq_of_lt hn
  have hword {n : Nat} (hn : n < 4294967296) : n % 256 ^ 4 = n := Nat.mod_eq_of_lt hn
  simp only [write, EndRecord.read, List.append_assoc, bind_mark, bind_word, hhalf hfits.part,
    hhalf hfits.directoryPart, hhalf hfits.entriesHere, hhalf hfits.entries,
    hword hfits.directorySize, hword hfits.directoryStart, hhalf hfits.comment, bind_bytes rfl]
  rfl

end Zip.EndRecord

/-- A placed entry is one of the list, and ends where all of them end or before. -/
theorem mem_placedFrom {p place : Nat} {es : List Entry} {e : Entry}
    (h : (place, e) ∈ placedFrom p es) :
    e ∈ es ∧ place + e.length ≤ p + (es.flatMap Entry.write).length := by
  induction es generalizing p with
  | nil => cases h
  | cons first es ih =>
    rw [List.flatMap_cons, List.length_append, Entry.length_write]
    rcases List.mem_cons.mp h with hfirst | hothers
    · cases hfirst
      exact ⟨List.mem_cons_self, by omega⟩
    · obtain ⟨hmem, hle⟩ := ih hothers
      exact ⟨List.mem_cons_of_mem _ hmem, by omega⟩

/-! ### Archives -/

/-- The bytes of the entries. -/
def entryBytes (a : Archive) : Bytes := a.entries.flatMap Entry.write

/-- The bytes of the directory. -/
def directory (a : Archive) : Bytes := (headers a.entries).flatMap (·.write)

/-- The end record. -/
def endRecord (a : Archive) : EndRecord where
  part := 0
  directoryPart := 0
  entriesHere := a.entries.length
  entries := a.entries.length
  directorySize := a.directory.length
  directoryStart := a.entryBytes.length
  comment := a.comment

/-- An archive as it is written: its entries have distinct names, the words of its records have
room for its numbers, and no other mark of an end record stands inside the one at its end. -/
structure IsWritten (a : Archive) : Prop where
  entries : ∀ e ∈ a.entries, e.IsWritten
  names : a.names.Nodup
  few : a.entries.length < 65535
  room : a.write.length < 4294967296
  comment : a.comment.length < 65536
  last : Mark.endRecord.places 1 a.endRecord.write.tail = []

/-- The headers are those of the entries, each with the place where it was written. -/
theorem headers_eq (es : List Entry) :
    headers es = (placedFrom 0 es).map fun (place, e) => e.header place := by
  rw [headers, placed_eq]

theorem length_headers (es : List Entry) : (headers es).length = es.length := by
  rw [headers_eq, List.length_map, length_placedFrom]

namespace IsWritten

variable {a : Archive}

/-- The end record has room for all its numbers, so there is no wide one. -/
theorem write_eq (h : a.IsWritten) :
    a.write = (a.entryBytes ++ a.directory) ++ a.endRecord.write := by
  have hfew := h.few
  have hlimit : Word.limit 2 = 65535 := rfl
  have hshown : min a.entries.length (Word.limit 2) = a.entries.length :=
    Nat.min_eq_left (by omega)
  rw [write, length_headers, ← length_flatMap_write]
  show _ ++ _ ++ Zip.writeEnd _ a.directory.length a.entryBytes.length _ _ = _
  rw [writeEnd, if_neg (by omega), hshown, List.nil_append]
  rfl

/-- The end record has room for all its numbers, and the whole archive for its places. -/
theorem endRecord_fits (h : a.IsWritten) :
    a.endRecord.Fits ∧ a.entryBytes.length + a.directory.length + 22 < 4294967296 := by
  have hroom := h.room
  have hfew := h.few
  have hlength : a.endRecord.write.length = 22 + a.comment.length := by
    simp only [EndRecord.write, endRecord, List.length_append, Word.length_bytes,
      Mark.length_bytes]
  rw [h.write_eq, List.length_append, List.length_append, hlength] at hroom
  have hfits : a.endRecord.Fits :=
    { part := Nat.zero_lt_succ _
      directoryPart := Nat.zero_lt_succ _
      -- entries and bytes are fewer than would need the wide form
      entriesHere := by
        show a.entries.length < _
        omega
      entries := by
        show a.entries.length < _
        omega
      directorySize := by
        show a.directory.length < _
        omega
      directoryStart := by
        show a.entryBytes.length < _
        omega
      comment := h.comment }
  exact ⟨hfits, by omega⟩

/-- Behind the entries come the directory and the end record. -/
theorem drop_write (h : a.IsWritten) :
    a.write.drop a.entryBytes.length = a.directory ++ a.endRecord.write := by
  rw [h.write_eq, List.append_assoc, List.drop_left]

/-- Nothing stands in front of the archive. -/
theorem shift? (h : a.IsWritten) :
    a.endRecord.shift? a.write (a.entryBytes.length + a.directory.length) = some 0 := by
  cases hentries : a.entries with
  | nil =>
    have hnone : a.endRecord.entries = 0 := congrArg List.length hentries
    have hdirectory : a.directory = [] := by
      rw [directory, hentries]
      rfl
    rw [EndRecord.shift?, if_pos hnone, hdirectory]
    show some (a.entryBytes.length + 0 - a.entryBytes.length) = _
    rw [Nat.add_zero, Nat.sub_self]
  | cons e es =>
    have hsome : a.endRecord.entries ≠ 0 := by
      show a.entries.length ≠ 0
      rw [hentries]
      exact Nat.succ_ne_zero _
    -- the directory starts with the mark of its first header
    obtain ⟨tail, htail⟩ : ∃ tail, a.directory = Mark.header.bytes ++ tail := by
      rw [directory, headers_eq, hentries, placedFrom, List.map_cons, List.flatMap_cons]
      simp only [Header.write, List.append_assoc]
      exact ⟨_, rfl⟩
    have hdrop := h.drop_write
    rw [htail, List.append_assoc] at hdrop
    have hlt : a.entryBytes.length < a.entryBytes.length + a.directory.length := by
      rw [htail, List.length_append, Mark.length_bytes]
      omega
    have hstart : a.endRecord.directoryStart = a.entryBytes.length := rfl
    simp only [EndRecord.shift?, if_neg hsome, hstart, hdrop, places_mark, if_pos hlt, Nat.sub_self]

/-- The end record of a written archive says where the directory is. -/
theorem site? (h : a.IsWritten) :
    a.endRecord.site? a.write (a.entryBytes.length + a.directory.length) =
      some ⟨0, a.entryBytes.length, a.entries.length⟩ := by
  obtain ⟨hfits, hroom⟩ := h.endRecord_fits
  -- nothing has to be looked up in a wide end record
  have hfew := h.few
  have hfull : a.endRecord.isFull = false := by
    have hhalf : Word.limit 2 = 65535 := rfl
    have hword : Word.limit 4 = 4294967295 := rfl
    rw [EndRecord.isFull, hhalf, hword, Bool.or_eq_false_iff, decide_eq_false_iff_not,
      decide_eq_false_iff_not]
    show ¬ a.entries.length = 65535 ∧ ¬ a.entryBytes.length = 4294967295
    omega
  have hpart : a.endRecord.part = a.endRecord.directoryPart := rfl
  rw [EndRecord.site?, hfull]
  show a.endRecord.ownSite? _ _ = _
  rw [EndRecord.ownSite?, if_pos hpart, h.shift?]
  show some (Site.mk 0 (0 + a.entryBytes.length) a.entries.length) = _
  rw [Nat.zero_add]

/-- From the directory, all entries are read back. -/
theorem entries? (h : a.IsWritten) :
    Zip.entries? a.write ⟨0, a.entryBytes.length, a.entries.length⟩ = some a.entries := by
  obtain ⟨hfits, hroom⟩ := h.endRecord_fits
  -- each header of the directory is read off its own bytes
  have hheaders : ∀ k ∈ headers a.entries, ∀ rest,
      Header.read (k.write ++ rest) = .ok (k, rest) := by
    intro k hk rest
    rw [headers_eq] at hk
    obtain ⟨⟨place, e⟩, hmem, rfl⟩ := List.mem_map.mp hk
    obtain ⟨he, hle⟩ := mem_placedFrom hmem
    have hdata : e.data.length ≤ e.length := Nat.le_add_left _ _
    have hbytes : (a.entries.flatMap Entry.write).length = a.entryBytes.length := rfl
    exact Header.read_write ((h.entries e he).fits (by omega) (by omega)) rest
  have hread := many_flatMap hheaders a.endRecord.write
  rw [length_headers] at hread
  have hdrop : a.write.drop a.entryBytes.length =
    (headers a.entries).flatMap (·.write) ++ a.endRecord.write := h.drop_write
  simp only [Zip.entries?, hdrop, hread]
  -- nothing stands in front of the first entry
  have hend : (a.entries.flatMap Entry.write).length ≤ a.entryBytes.length := Nat.le_refl _
  have hstart : a.entryBytes.length < 4294967296 := by omega
  have hall := mapM_entryAt? (s := ⟨0, a.entryBytes.length, a.entries.length⟩)
    h.entries rfl [] (a.directory ++ a.endRecord.write)
    (by rw [List.length_nil, Nat.zero_add]; exact hend) hstart
  rw [headers_eq, h.write_eq, List.append_assoc]
  exact hall

/-- **Reading back.** An archive is read as it was written. -/
theorem read?_write (h : a.IsWritten) : read? a.write = some a := by
  obtain ⟨hfits, -⟩ := h.endRecord_fits
  obtain ⟨tail, htail⟩ : ∃ tail, a.endRecord.write = Mark.endRecord.bytes ++ tail := by
    simp only [EndRecord.write, List.append_assoc]
    exact ⟨_, rfl⟩
  -- the end record is where the last mark of one stands
  obtain ⟨marks, hmarks⟩ := exists_places_append Mark.endRecord 0 (a.entryBytes ++ a.directory)
    a.endRecord.write
  have hlast : Mark.endRecord.places (a.entryBytes ++ a.directory).length a.endRecord.write =
      [((a.entryBytes ++ a.directory).length, a.endRecord.write)] := by
    have hothers := h.last
    rw [htail] at hothers ⊢
    rw [places_mark, places_eq_nil hothers]
  have harchive : Zip.archive? a.write (a.entryBytes ++ a.directory).length a.endRecord.write =
      some a := by
    have hread := EndRecord.read_write hfits []
    rw [List.append_nil] at hread
    rw [List.length_append]
    simp only [Zip.archive?, hread, Except.toOption, h.site?, h.entries?, distinct_eq h.names,
      Option.bind_eq_bind, Option.bind_some]
    rfl
  rw [Nat.zero_add, hlast, ← h.write_eq] at hmarks
  rw [read?, hmarks, List.reverse_append, List.reverse_singleton, List.singleton_append,
    List.findSome?_cons]
  simp only [harchive]

end IsWritten

/-! ### Rebuilt archives -/

/-- An entry of an archive that is to be rebuilt: it is all there, its method needs no extra
field, and the words of its headers have room for its numbers. -/
structure Entry.IsPlain (e : Entry) : Prop where
  method : Method.ofCode e.method.code = e.method
  unsealed : e.method.code.toNat ≠ Header.sealedMethod
  modified : ∀ s ∈ e.modified, s.IsDos
  size : e.size < 4294967296
  complete : e.dataSize = e.data.length
  name : (Text.Utf8.encode e.name).length < 65536

instance (e : Entry) : Decidable e.IsPlain :=
  decidable_of_iff
    (Method.ofCode e.method.code = e.method ∧ e.method.code.toNat ≠ Header.sealedMethod ∧
      (∀ s ∈ e.modified, s.IsDos) ∧ e.size < 4294967296 ∧ e.dataSize = e.data.length ∧
      (Text.Utf8.encode e.name).length < 65536)
    ⟨fun ⟨method, unsealed, modified, size, complete, name⟩ =>
      { method, unsealed, modified, size, complete, name },
      fun h => ⟨h.method, h.unsealed, h.modified, h.size, h.complete, h.name⟩⟩

namespace Entry.IsPlain

variable {e : Entry}

/-- A copy has a time and is an ordinary file. -/
theorem copied (h : e.IsPlain) : e.copied.IsWritten where
  method := h.method
  unsealed := h.unsealed
  plain := rfl
  modified := by
    refine ⟨e.modified.getD .dosEpoch, rfl, ?_⟩
    cases hs : e.modified with
    | none => exact Stamp.IsDos.dosEpoch
    | some s => exact h.modified s hs
  mode := by
    refine ⟨writtenMode e.mode, rfl, ?_⟩
    have hfile : ordinaryFile = 32768 := rfl
    unfold writtenMode
    split <;> omega
  size := h.size
  complete := h.complete
  name := h.name

/-- Other content has its own method and its own size. -/
theorem withContent (h : e.IsPlain) {content : Bytes} (hcontent : content.length < 4294967296) :
    (e.withContent content).IsWritten where
  method := by
    unfold Entry.withContent
    by_cases hmethod : e.method = .stored <;> simp only [hmethod] <;> rfl
  unsealed := by
    unfold Entry.withContent
    by_cases hmethod : e.method = .stored <;> simp only [hmethod] <;> decide
  plain := rfl
  modified := h.copied.modified
  mode := h.copied.mode
  size := hcontent
  complete := rfl
  name := h.name

/-- An entry of a rebuilt archive is read as it is written. -/
theorem substituted (h : e.IsPlain) {subs : Substitutions}
    (hsubs : ∀ s ∈ subs, s.2.length < 4294967296) : (e.substituted subs).IsWritten := by
  unfold Entry.substituted
  split
  · next content hlookup =>
    obtain ⟨before, behind, rfl, -⟩ := List.lookup_eq_some_iff.mp hlookup
    exact h.withContent (hsubs _ (List.mem_append_right _ List.mem_cons_self))
  · exact h.copied

end Entry.IsPlain

/-- An archive that is rebuilt with new content: its entries are plain, the format has room for
it without wide numbers, and nothing in its end record is taken for another one. -/
structure IsPlain (a : Archive) (subs : Substitutions) : Prop where
  entries : ∀ e ∈ a.entries, e.IsPlain
  contents : ∀ s ∈ subs, s.2.length < 4294967296
  few : a.entries.length < 65535
  room : (a.substituted subs).write.length < 4294967296
  comment : a.comment.length < 65536
  last : Mark.endRecord.places 1 (a.substituted subs).endRecord.write.tail = []

instance (a : Archive) (subs : Substitutions) : Decidable (a.IsPlain subs) :=
  decidable_of_iff
    ((∀ e ∈ a.entries, e.IsPlain) ∧ (∀ s ∈ subs, s.2.length < 4294967296) ∧
      a.entries.length < 65535 ∧ (a.substituted subs).write.length < 4294967296 ∧
      a.comment.length < 65536 ∧
      Mark.endRecord.places 1 (a.substituted subs).endRecord.write.tail = [])
    ⟨fun ⟨entries, contents, few, room, comment, last⟩ =>
      { entries, contents, few, room, comment, last },
      fun h => ⟨h.entries, h.contents, h.few, h.room, h.comment, h.last⟩⟩

/-- **Rebuilt archives.** An archive is read as it has been rebuilt. -/
theorem IsPlain.read?_write {a : Archive} {subs : Substitutions} (h : a.IsPlain subs)
    (hnames : a.names.Nodup) :
    read? (a.substituted subs).write = some (a.substituted subs) := by
  refine IsWritten.read?_write
    { entries := ?_
      names := ?_
      few := ?_
      room := h.room
      comment := h.comment
      last := h.last }
  · intro e he
    obtain ⟨old, hold, rfl⟩ := List.mem_map.mp he
    exact (h.entries old hold).substituted h.contents
  · rw [names_substituted]
    exact hnames
  · rw [substituted, List.length_map]
    exact h.few

end Archive

end Defuse
