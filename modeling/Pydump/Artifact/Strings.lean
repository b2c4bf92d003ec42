/-
# What is left of an over-long string

`HeapWriter` cuts the encoding of a string where its 16-bit length ends, and
`encode_object_begin` does the same with a type name.  The cut is made in bytes, so
it can fall inside a character, and then the decoder, which writes a byte it cannot
read as `\xNN`, adds characters the string never had.  A string that is cut between
two characters comes back as a beginning of itself, and these are the only ones that
do.
-/

import Pydump.Artifact.ReaderSpec
import Pydump.Artifact.WriterSpec
import Pydump.Protocol.Frames

namespace Pydump
namespace Artifact

open Capture
open Protocol (ObjectBegin encodeObjectBegin decodeObjectBegin OBJECT_BEGIN_SIZE bytesAt uintAt)

/-- What a string that was stored should come back as: a beginning of it, and all of
it where its encoding fits. -/
def KeepsBeginning (limit : ℕ) (s text : String) : Prop :=
  text.toList <+: s.toList ∧ ((Utf8.encode s).length ≤ limit → text = s)

/-- A clip keeps the beginning if and only if it falls between characters. -/
theorem keepsBeginning_clip_iff {limit : ℕ} {s : String} :
    KeepsBeginning limit s (clip limit s) ↔ Utf8.Between limit s := by
  unfold KeepsBeginning
  constructor
  · exact fun h => Utf8.decode_take_prefix_iff.1 h.1
  · exact fun h => ⟨Utf8.decode_take_prefix_iff.2 h, clip_of_le⟩

/-! ### The three ways a string is stored -/

/-- `_write_long_string`, then `_read_long_string` from where it was written. -/
theorem longString_reread (s : String) {w : HeapWriter} (hw : w.position = w.file.length) (post : List UInt8) :
    ∃ w', writeLongString s w = .ok ((), w') ∧
      Analyzer.readLongString (w'.file ++ post) w.file.length = .ok (clip MAX_STRING_SIZE s, w'.file.length) := by
  refine ⟨append w _, (Emits.writeLongString s w hw rfl).1 trivial, ?_⟩
  simpa [append] using @reads_longString w.file s post

/-- `_write_short_string`, then the reader of an attribute's name. -/
theorem shortString_reread (frequentAttributes : List String) (s : String) {w : HeapWriter}
    (hw : w.position = w.file.length) (post : List UInt8) :
    ∃ w', writeShortString s w = .ok ((), w') ∧
      Analyzer.readAttributeName frequentAttributes (w'.file ++ post) w.file.length =
        .ok (clip 0x7FFF s, w'.file.length) := by
  refine ⟨append w _, (Emits.writeShortString s w hw rfl).1 trivial, ?_⟩
  simpa [append] using @reads_attributeName w.file frequentAttributes s post

/-- The number that stands in front. -/
theorem uintAt_encode {back : List UInt8} {size value : ℕ} (h : value < 256 ^ size) :
    uintAt (BigEndian.encode size value ++ back) 0 size = value := by
  have hlen := BigEndian.length_encode size value
  unfold uintAt bytesAt
  rw [List.drop_zero, Nat.sub_zero, List.take_left' hlen, BigEndian.decode_encode h]

/-- The number behind a front of known length. -/
theorem uintAt_append {front back : List UInt8} {n : ℕ} (hn : front.length = n) (a b : ℕ) :
    uintAt (front ++ back) (n + a) (n + b) = uintAt back a b := by
  unfold uintAt bytesAt
  rw [← hn, List.drop_append, List.drop_of_length_le (by omega), List.nil_append, Nat.add_sub_cancel_left]
  congr 2
  omega

/-- `encode_object_begin`, then `decode_object_begin`: only the name may have changed. -/
theorem objectBegin_reread {begin : ObjectBegin} {payload : List UInt8} (h : encodeObjectBegin begin = .ok payload) :
    decodeObjectBegin payload = .ok { begin with typeName := clip 0xFFFF begin.typeName } := by
  unfold encodeObjectBegin at h
  split_ifs at h with hfits
  obtain ⟨haddress, htype, hsize, hkind⟩ := hfits
  have hname := length_kept_le 0xFFFF begin.typeName
  have hlen := BigEndian.length_encode
  obtain rfl := Except.ok.inj h
  generalize hkept : (Utf8.encode begin.typeName).take 0xFFFF = name at *
  -- the fields in front of the name, one behind the other
  have hfirst : ∀ size value back, value < 256 ^ size →
      uintAt (BigEndian.encode size value ++ back) 0 size = value := fun _ _ _ => uintAt_encode
  have hnext : ∀ (size value : ℕ) back a b,
      uintAt (BigEndian.encode size value ++ back) (size + a) (size + b) = uintAt back a b :=
    fun size value _ => uintAt_append (hlen size value)
  have htype' := (hnext 8 begin.address _ 0 8).trans
    (hfirst 8 begin.typeAddress (BigEndian.encode 4 begin.shallowSize ++ (BigEndian.encode 1 begin.contentKind ++
      (BigEndian.encode 2 name.length ++ name))) (by omega))
  have hsize' := (hnext 8 begin.address _ 8 12).trans ((hnext 8 begin.typeAddress _ 0 4).trans
    (hfirst 4 begin.shallowSize (BigEndian.encode 1 begin.contentKind ++ (BigEndian.encode 2 name.length ++ name))
      (by omega)))
  have hkind' := (hnext 8 begin.address _ 12 13).trans ((hnext 8 begin.typeAddress _ 4 5).trans
    ((hnext 4 begin.shallowSize _ 0 1).trans
      (hfirst 1 begin.contentKind (BigEndian.encode 2 name.length ++ name) (by omega))))
  have hcount' := (hnext 8 begin.address _ 13 15).trans ((hnext 8 begin.typeAddress _ 5 7).trans
    ((hnext 4 begin.shallowSize _ 1 3).trans ((hnext 1 begin.contentKind _ 0 2).trans
      (hfirst 2 name.length name (by omega)))))
  have hdrop : (BigEndian.encode 8 begin.address ++ (BigEndian.encode 8 begin.typeAddress ++
      (BigEndian.encode 4 begin.shallowSize ++ (BigEndian.encode 1 begin.contentKind ++
        (BigEndian.encode 2 name.length ++ name))))).drop 23 = name := by
    simp only [← List.append_assoc]
    exact List.drop_left' (by simp only [List.length_append, hlen])
  unfold decodeObjectBegin OBJECT_BEGIN_SIZE
  rw [if_neg (by simp only [List.length_append, hlen]; omega)]
  simp only [hdrop, hcount', hfirst 8 begin.address _ (by omega), htype', hsize', hkind', ne_eq, not_true_eq_false,
    if_false, clip, hkept]

/-! ### Only a cut between two characters keeps the string -/

/-- **What is left of a stored string.**  Both string writers and the type name of
`OBJECT_BEGIN` keep a beginning of the string, and all of it where it fits, exactly when
their limit does not fall inside a character of it. -/
theorem stored_keeps_beginning_iff (s : String) :
    (∀ w : HeapWriter, w.position = w.file.length → ∀ post, ∃ w' text,
      writeLongString s w = .ok ((), w') ∧
        Analyzer.readLongString (w'.file ++ post) w.file.length = .ok (text, w'.file.length) ∧
        (KeepsBeginning 65535 s text ↔ Utf8.Between 65535 s)) ∧
      (∀ w : HeapWriter, w.position = w.file.length → ∀ frequentAttributes post, ∃ w' text,
        writeShortString s w = .ok ((), w') ∧
          Analyzer.readAttributeName frequentAttributes (w'.file ++ post) w.file.length = .ok (text, w'.file.length) ∧
          (KeepsBeginning 32767 s text ↔ Utf8.Between 32767 s)) ∧
      ∀ begin payload, begin.typeName = s → encodeObjectBegin begin = .ok payload → ∃ begin',
        decodeObjectBegin payload = .ok begin' ∧
          (KeepsBeginning 65535 s begin'.typeName ↔ Utf8.Between 65535 s) := by
  refine ⟨fun w hw post => ?_, fun w hw frequentAttributes post => ?_, fun begin payload hname h => ?_⟩
  · obtain ⟨w', hwrite, hread⟩ := longString_reread s hw post
    exact ⟨w', _, hwrite, hread, keepsBeginning_clip_iff⟩
  · obtain ⟨w', hwrite, hread⟩ := shortString_reread frequentAttributes s hw post
    exact ⟨w', _, hwrite, hread, keepsBeginning_clip_iff⟩
  · subst hname
    exact ⟨_, objectBegin_reread h, keepsBeginning_clip_iff⟩

/-- A name that fits, on each of the three ways. -/
theorem stored_keeps_beginning_int :
    (∃ w' text, writeLongString "int" (.new true) = .ok ((), w') ∧
      Analyzer.readLongString (w'.file ++ [7]) 0 = .ok (text, w'.file.length) ∧
      (KeepsBeginning 65535 "int" text ↔ Utf8.Between 65535 "int")) ∧
      (∃ w' text, writeShortString "int" (.new true) = .ok ((), w') ∧
        Analyzer.readAttributeName ["x"] (w'.file ++ [7]) 0 = .ok (text, w'.file.length) ∧
        (KeepsBeginning 32767 "int" text ↔ Utf8.Between 32767 "int")) ∧
      ∃ begin', decodeObjectBegin
          [0, 0, 0, 0, 0, 0, 0, 1, 0, 0, 0, 0, 0, 0, 0, 2, 0, 0, 0, 28, 0, 0, 3, 105, 110, 116] = .ok begin' ∧
        (KeepsBeginning 65535 "int" begin'.typeName ↔ Utf8.Between 65535 "int") :=
  ⟨(stored_keeps_beginning_iff "int").1 (.new true) rfl [7],
    (stored_keeps_beginning_iff "int").2.1 (.new true) rfl ["x"] [7],
    (stored_keeps_beginning_iff "int").2.2 ⟨1, 2, 28, 0, "int"⟩ _ rfl (by decide +kernel)⟩

/-- The letter `a` up to one byte before the limit, and a character of two bytes. -/
def overLimit (limit : ℕ) : String := String.ofList (List.replicate (limit - 1) 'a' ++ ['é'])

/-- The limit falls inside the last character. -/
theorem not_between_overLimit {limit : ℕ} (hpos : 0 < limit) : ¬Utf8.Between limit (overLimit limit) := by
  have hbytes : ∀ n, ((List.replicate n 'a').flatMap String.utf8EncodeChar).length = n := by
    intro n
    induction n with
    | zero => rfl
    | succ n ih =>
      have ha : (String.utf8EncodeChar 'a').length = 1 := by decide
      rw [List.replicate_succ, List.flatMap_cons, List.length_append, ih, ha, Nat.add_comm]
  have hlast : (String.utf8EncodeChar 'é').length = 2 := by decide
  rintro ⟨front, back, hs, hlen⟩
  have hwhole : (Utf8.encode (overLimit limit)).length = limit + 1 := by
    simp only [overLimit, Utf8.encode, String.toList_ofList, List.flatMap_append, List.flatMap_cons, List.flatMap_nil,
      List.append_nil, List.length_append, hbytes, hlast]
    omega
  have hprefix : front.toList <+: List.replicate (limit - 1) 'a' ++ ['é'] :=
    ⟨back.toList, by rw [← String.toList_append, ← hs, overLimit, String.toList_ofList]⟩
  rcases List.prefix_concat_iff.1 hprefix with hall | hsome
  · have : front = overLimit limit := by rw [overLimit, ← hall, String.ofList_toList]
    rw [this, hwhole] at hlen
    omega
  · obtain ⟨rest, hrest⟩ := hsome
    have hle := congrArg (fun cs => (cs.flatMap String.utf8EncodeChar).length) hrest
    simp only [List.flatMap_append, List.length_append, hbytes] at hle
    rw [hwhole, Utf8.encode] at hlen
    omega

/-- A character across the limit comes back as an escape the string did not have, on
each of the three ways. -/
theorem stored_corrupted :
    (∃ w' text, writeLongString (overLimit 65535) (.new true) = .ok ((), w') ∧
      Analyzer.readLongString w'.file 0 = .ok (text, w'.file.length) ∧
      ¬text.toList <+: (overLimit 65535).toList) ∧
      (∃ w' text, writeShortString (overLimit 32767) (.new true) = .ok ((), w') ∧
        Analyzer.readAttributeName [] w'.file 0 = .ok (text, w'.file.length) ∧
        ¬text.toList <+: (overLimit 32767).toList) ∧
      ∃ payload begin', encodeObjectBegin ⟨1, 2, 28, 0, overLimit 65535⟩ = .ok payload ∧
        decodeObjectBegin payload = .ok begin' ∧ ¬begin'.typeName.toList <+: (overLimit 65535).toList := by
  have hcut : ∀ limit, 0 < limit → ¬(clip limit (overLimit limit)).toList <+: (overLimit limit).toList :=
    fun limit hpos h => not_between_overLimit hpos (Utf8.decode_take_prefix_iff.1 h)
  refine ⟨?_, ?_, ?_⟩
  · obtain ⟨w', hwrite, hread⟩ := longString_reread (overLimit 65535) (w := .new true) rfl []
    rw [List.append_nil] at hread
    exact ⟨w', _, hwrite, hread, hcut 65535 (by omega)⟩
  · obtain ⟨w', hwrite, hread⟩ := shortString_reread [] (overLimit 32767) (w := .new true) rfl []
    rw [List.append_nil] at hread
    exact ⟨w', _, hwrite, hread, hcut 32767 (by omega)⟩
  · obtain ⟨payload, h⟩ : ∃ payload, encodeObjectBegin ⟨1, 2, 28, 0, overLimit 65535⟩ = .ok payload := by
      unfold encodeObjectBegin
      rw [if_pos (by norm_num)]
      exact ⟨_, rfl⟩
    exact ⟨payload, _, h, objectBegin_reread h, hcut 65535 (by omega)⟩

end Artifact
end Pydump
