import M5DayLog.Cdc.Worker
import M5DayLog.Lib.Lines

/-! The line framer on its fixed buffer. Whatever the chunks in which a stream arrives, the framer gives the lines between
its line feeds, each without one `\r` before the line feed, and refuses a line that is too large once, at its end. The
worker's framer, which keeps the bytes of a line with their generations, makes the same steps (`Framer.Frames.feed`). -/

namespace M5DayLog

open Bytes Lines

section Feed

inductive FrameResult
  | none
  | line
  | tooLarge
  deriving DecidableEq

/-- `line_len` bytes of the buffer are the line so far. The buffer has room for one byte more than the largest payload, for
the `\r`. -/
structure UsbCdcProtocolFramer where
  line : Vector UInt8 (usbCdcProtocolMaxLineBytes + 1)
  lineLen : ℕ
  oversized : Bool
  fits : lineLen ≤ usbCdcProtocolMaxLineBytes + 1

/-- What one byte gives: the result, and where it is not `none` the buffer and the length to read of it. -/
structure Frame where
  result : FrameResult
  outLine : Option (Vector UInt8 (usbCdcProtocolMaxLineBytes + 1))
  outLen : ℕ

namespace UsbCdcProtocolFramer

variable (framer : UsbCdcProtocolFramer)

theorem fits_zero : 0 ≤ usbCdcProtocolMaxLineBytes + 1 := Nat.zero_le _

def reset : UsbCdcProtocolFramer := { framer with lineLen := 0, oversized := false, fits := fits_zero }

/-- The length of the payload: without the `\r` that may stand last. -/
def payloadLen : ℕ :=
  if h : framer.lineLen ≠ 0 then
    if framer.line.get ⟨framer.lineLen - 1, by have := framer.fits; omega⟩ = 0x0d then framer.lineLen - 1 else framer.lineLen
  else framer.lineLen

def feed (byte : UInt8) : Frame × UsbCdcProtocolFramer :=
  if byte ≠ newline then
    (⟨.none, none, 0⟩,
      if framer.oversized then framer
      else if h : framer.lineLen < usbCdcProtocolMaxLineBytes + 1 then
        { framer with line := framer.line.set framer.lineLen byte, lineLen := framer.lineLen + 1, fits := h }
      else { framer with oversized := true })
  else if framer.oversized ∨ framer.payloadLen > usbCdcProtocolMaxLineBytes then
    (⟨.tooLarge, some framer.line, usbCdcProtocolMaxLineBytes + 1⟩, framer.reset)
  else (⟨.line, some framer.line, framer.payloadLen⟩, framer.reset)

/-- The results of a chunk, byte by byte. -/
def feedChunk : UsbCdcProtocolFramer → Bytes → List Frame × UsbCdcProtocolFramer
  | framer, [] => ([], framer)
  | framer, byte :: bytes =>
    let r := framer.feed byte
    let rest := feedChunk r.2 bytes
    (r.1 :: rest.1, rest.2)

/-- The results of a stream that comes in chunks. -/
def feedChunks : UsbCdcProtocolFramer → List Bytes → List Frame × UsbCdcProtocolFramer
  | framer, [] => ([], framer)
  | framer, chunk :: chunks =>
    let r := framer.feedChunk chunk
    let rest := feedChunks r.2 chunks
    (r.1 ++ rest.1, rest.2)

end UsbCdcProtocolFramer

end Feed

section Reference

/-- What a line is to its receiver. -/
inductive Delivery
  | line (payload : Bytes)
  | tooLarge
  deriving DecidableEq

def stripCr (l : Bytes) : Bytes := if l.getLast? = some 0x0d then l.dropLast else l

def deliverLine (l : Bytes) : Delivery :=
  if usbCdcProtocolMaxLineBytes < (stripCr l).length then .tooLarge else .line (stripCr l)

/-- What the receiver reads of the buffer. -/
def Frame.text (f : Frame) : Option Bytes := f.outLine.map fun buffer => buffer.toList.take f.outLen

def Frame.delivery (f : Frame) : Option Delivery :=
  match f.result with
  | .none => none
  | .line => f.text.map .line
  | .tooLarge => some .tooLarge

end Reference

section Splits

variable {framer : UsbCdcProtocolFramer} {l : Bytes} {byte : UInt8}

/-- The framer in the middle of a line of which it has been given `l`. -/
structure UsbCdcProtocolFramer.Holds (framer : UsbCdcProtocolFramer) (l : Bytes) : Prop where
  line : framer.line.toList.take framer.lineLen = l.take (usbCdcProtocolMaxLineBytes + 1)
  oversized : framer.oversized = decide (usbCdcProtocolMaxLineBytes + 1 < l.length)

theorem UsbCdcProtocolFramer.Holds.lineLen (h : framer.Holds l) :
    framer.lineLen = min l.length (usbCdcProtocolMaxLineBytes + 1) := by
  have hlen := congrArg List.length h.line
  have hfits := framer.fits
  simp only [List.length_take, Vector.length_toList] at hlen
  omega

theorem UsbCdcProtocolFramer.holds_reset (framer : UsbCdcProtocolFramer) : framer.reset.Holds [] :=
  ⟨by simp [reset], by simp [reset]⟩

/-- A byte of the line is taken in. -/
theorem UsbCdcProtocolFramer.Holds.feed (h : framer.Holds l) (hb : byte ≠ newline) :
    (framer.feed byte).1 = ⟨.none, none, 0⟩ ∧ (framer.feed byte).2.Holds (l ++ [byte]) := by
  have hlen := h.lineLen
  have hover := h.oversized
  rw [UsbCdcProtocolFramer.feed, if_pos hb]
  refine ⟨rfl, ?_⟩
  show UsbCdcProtocolFramer.Holds (if framer.oversized then framer else _) _
  by_cases hlarge : usbCdcProtocolMaxLineBytes + 1 < l.length
  · rw [if_pos (by simpa [hlarge] using hover)]
    constructor
    · rw [h.line, List.take_append_of_le_length (by omega)]
    · rw [hover]
      simp
      omega
  · have hsmall : framer.oversized = false := by simpa [hlarge] using hover
    rw [if_neg (by simp [hsmall])]
    by_cases hroom : framer.lineLen < usbCdcProtocolMaxLineBytes + 1
    · rw [dif_pos hroom]
      have hl : framer.lineLen = l.length := by omega
      have hold : framer.line.toList.take framer.lineLen = l := by
        rw [h.line, List.take_of_length_le (by omega)]
      constructor
      · have htake : (framer.line.toList.set framer.lineLen byte).take (framer.lineLen + 1) = l ++ [byte] := by
          rw [List.take_add_one, List.take_set_of_le le_rfl, hold, List.getElem?_set_self (by simpa using hroom)]
          rfl
        show (framer.line.set framer.lineLen byte).toList.take (framer.lineLen + 1) = _
        rw [Vector.toList_set, htake, List.take_of_length_le]
        simp
        omega
      · show framer.oversized = _
        simp [hsmall]
        omega
    · rw [dif_neg hroom]
      constructor
      · show framer.line.toList.take framer.lineLen = _
        rw [h.line, List.take_append_of_le_length (by omega)]
      · simp
        omega

theorem length_stripCr (l : Bytes) : l.length ≤ (stripCr l).length + 1 ∧ (stripCr l).length ≤ l.length := by
  unfold stripCr
  split
  · simp only [List.length_dropLast]
    omega
  · omega

/-- What is to be read of the buffer at the end of a line that fits. -/
theorem UsbCdcProtocolFramer.Holds.payload (h : framer.Holds l) (hfit : l.length ≤ usbCdcProtocolMaxLineBytes + 1) :
    framer.payloadLen = (stripCr l).length ∧ framer.line.toList.take framer.payloadLen = stripCr l := by
  have hlen := h.lineLen
  have hline : framer.line.toList.take framer.lineLen = l := by
    rw [h.line, List.take_of_length_le hfit]
  have hl : framer.lineLen = l.length := by omega
  unfold UsbCdcProtocolFramer.payloadLen
  by_cases hzero : framer.lineLen = 0
  · have hnil : l = [] := List.eq_nil_of_length_eq_zero (by omega)
    rw [dif_neg (not_not.mpr hzero), hzero, hnil]
    exact ⟨rfl, rfl⟩
  · have hlast : l.getLast? = some (framer.line.get ⟨framer.lineLen - 1, by have := framer.fits; omega⟩) := by
      have hget : l[framer.lineLen - 1]? = framer.line.toList[framer.lineLen - 1]? := by
        rw [← hline, List.getElem?_take_of_lt (by omega)]
      rw [List.getLast?_eq_getElem?, ← hl, hget, Vector.getElem?_toList,
        Vector.getElem?_eq_getElem (by have := framer.fits; omega)]
      rfl
    rw [dif_pos hzero]
    unfold stripCr
    rw [hlast]
    by_cases hcr : framer.line.get ⟨framer.lineLen - 1, by have := framer.fits; omega⟩ = 0x0d
    · rw [if_pos hcr, if_pos (congrArg some hcr), List.length_dropLast, hl]
      refine ⟨rfl, ?_⟩
      calc framer.line.toList.take (l.length - 1)
          = (framer.line.toList.take framer.lineLen).take (l.length - 1) := by
            rw [List.take_take, Nat.min_eq_left (by omega)]
        _ = l.dropLast := by rw [hline, List.dropLast_eq_take]
    · rw [if_neg hcr, if_neg (by simpa using hcr)]
      exact ⟨hl, hline⟩

/-- A line feed delivers the line, and the framer starts afresh. -/
theorem UsbCdcProtocolFramer.Holds.lineFeed (h : framer.Holds l) :
    (framer.feed newline).1.delivery = some (deliverLine l) ∧ (framer.feed newline).1.result ≠ .none ∧
      (framer.feed newline).1.outLen ≤ usbCdcProtocolMaxLineBytes + 1 ∧ (framer.feed newline).2.Holds [] := by
  have hstrip := length_stripCr l
  have hlarge : (framer.oversized = true ∨ framer.payloadLen > usbCdcProtocolMaxLineBytes) ↔
      usbCdcProtocolMaxLineBytes < (stripCr l).length := by
    by_cases hfit : l.length ≤ usbCdcProtocolMaxLineBytes + 1
    · rw [(h.payload hfit).1, h.oversized]
      simp only [decide_eq_true_eq]
      omega
    · rw [h.oversized]
      simp only [decide_eq_true_eq]
      omega
  rw [UsbCdcProtocolFramer.feed, if_neg (not_not.mpr rfl)]
  by_cases htoo : usbCdcProtocolMaxLineBytes < (stripCr l).length
  · rw [if_pos (hlarge.mpr htoo), deliverLine, if_pos htoo]
    exact ⟨rfl, nofun, le_rfl, holds_reset framer⟩
  · have hfit : l.length ≤ usbCdcProtocolMaxLineBytes + 1 := by omega
    rw [if_neg fun hc => htoo (hlarge.mp hc), deliverLine, if_neg htoo]
    refine ⟨?_, nofun, ?_, holds_reset framer⟩
    · exact congrArg (fun p => some (Delivery.line p)) (h.payload hfit).2
    · show framer.payloadLen ≤ _
      rw [(h.payload hfit).1]
      omega

/-- What the framer has made of a text: a delivery for each complete line, at its line feed and nowhere else, and nothing
beyond the buffer to read. -/
structure FramesOf (frames : List Frame) (l bytes : Bytes) : Prop where
  lines : frames.filterMap Frame.delivery = (completeLines (l ++ bytes)).map deliverLine
  quiet : frames.map (fun f => decide (f.result = .none)) = bytes.map fun b => decide (b ≠ newline)
  inside : ∀ f ∈ frames, f.outLen ≤ usbCdcProtocolMaxLineBytes + 1

theorem UsbCdcProtocolFramer.Holds.feedChunk (h : framer.Holds l) (hl : newline ∉ l) (bytes : Bytes) :
    FramesOf (framer.feedChunk bytes).1 l bytes := by
  induction bytes generalizing framer l with
  | nil => exact ⟨by simp [UsbCdcProtocolFramer.feedChunk, completeLines_eq_nil hl], rfl, nofun⟩
  | cons byte bytes ih =>
    show FramesOf ((framer.feed byte).1 :: ((framer.feed byte).2.feedChunk bytes).1) l (byte :: bytes)
    by_cases hb : byte = newline
    · subst hb
      obtain ⟨hline, hsome, hlen, hnext⟩ := h.lineFeed
      have hrest := ih hnext (List.not_mem_nil)
      constructor
      · rw [completeLines_cons hl, List.map_cons, List.filterMap_cons_some hline, hrest.lines, List.nil_append]
      · rw [List.map_cons, List.map_cons, hrest.quiet]
        simp [hsome]
      · exact List.forall_mem_cons.mpr ⟨hlen, hrest.inside⟩
    · obtain ⟨hnone, hnext⟩ := h.feed hb
      have hrest := ih hnext (by simp [hl, Ne.symm hb])
      constructor
      · rw [hnone, List.filterMap_cons_none rfl, hrest.lines, List.append_assoc]
        rfl
      · rw [List.map_cons, List.map_cons, hrest.quiet, hnone]
        simp [hb]
      · rw [hnone]
        exact List.forall_mem_cons.mpr ⟨Nat.zero_le _, hrest.inside⟩

theorem UsbCdcProtocolFramer.feedChunk_append (framer : UsbCdcProtocolFramer) (a b : Bytes) :
    framer.feedChunk (a ++ b) =
      ((framer.feedChunk a).1 ++ ((framer.feedChunk a).2.feedChunk b).1, ((framer.feedChunk a).2.feedChunk b).2) := by
  induction a generalizing framer with
  | nil => rfl
  | cons byte a ih => simp [UsbCdcProtocolFramer.feedChunk, ih]

/-- The state carries over from chunk to chunk. -/
theorem UsbCdcProtocolFramer.feedChunks_flatten (framer : UsbCdcProtocolFramer) (chunks : List Bytes) :
    framer.feedChunks chunks = framer.feedChunk chunks.flatten := by
  induction chunks generalizing framer with
  | nil => rfl
  | cons chunk chunks ih => simp [UsbCdcProtocolFramer.feedChunks, ih, feedChunk_append]

/-- The framer splits a stream at its line feeds, in whatever chunks it comes and whatever the buffer held before. -/
theorem usbCdcProtocolFramer_splits (framer : UsbCdcProtocolFramer) (chunks : List Bytes) :
    (framer.reset.feedChunks chunks).1.filterMap Frame.delivery = (completeLines chunks.flatten).map deliverLine ∧
      (framer.reset.feedChunks chunks).1.map (fun f => decide (f.result = .none)) =
        chunks.flatten.map (fun b => decide (b ≠ newline)) ∧
      ∀ f ∈ (framer.reset.feedChunks chunks).1, f.outLen ≤ usbCdcProtocolMaxLineBytes + 1 := by
  rw [UsbCdcProtocolFramer.feedChunks_flatten]
  have h := (UsbCdcProtocolFramer.holds_reset framer).feedChunk List.not_mem_nil chunks.flatten
  exact ⟨h.lines, h.quiet, h.inside⟩

end Splits

section Worker

variable {w : Framer} {framer : UsbCdcProtocolFramer}

/-- The worker's framer holds the line of the buffer. -/
structure Framer.Frames (w : Framer) (framer : UsbCdcProtocolFramer) : Prop where
  line : w.line.map (·.value) = framer.line.toList.take framer.lineLen
  oversized : w.oversized = framer.oversized

theorem Framer.Frames.length (h : w.Frames framer) : w.line.length = framer.lineLen := by
  have hlen := congrArg List.length h.line
  have hfits := framer.fits
  simp only [List.length_map, List.length_take, Vector.length_toList] at hlen
  omega

theorem Framer.map_payload (line : List BatchByte) :
    (Framer.payload line).map (·.value) = stripCr (line.map (·.value)) := by
  unfold payload stripCr
  rw [List.getLast?_map]
  split
  · rw [List.map_dropLast]
  · rfl

theorem Framer.Frames.holds (h : w.Frames framer) (ho : framer.oversized = false) : framer.Holds (w.line.map (·.value)) := by
  have hlen := w.length_le
  constructor
  · rw [← h.line, List.take_of_length_le]
    simpa using hlen
  · rw [ho]
    simpa using hlen

/-- The worker's framer goes on with what is in the buffer. -/
theorem Framer.Frames.next (h : w.Frames framer) (byte : BatchByte) : (w.feed byte).2.Frames (framer.feed byte.value).2 := by
  have hlen := h.length
  by_cases hb : byte.value = newline
  · have hb' : ¬ byte.value ≠ 10 := not_not.mpr hb
    have hreset : Framer.reset.Frames framer.reset := ⟨by simp [Framer.reset, UsbCdcProtocolFramer.reset], rfl⟩
    unfold Framer.feed UsbCdcProtocolFramer.feed
    rw [if_neg hb', if_neg (not_not.mpr hb)]
    split <;> split <;> exact hreset
  · have hb' : byte.value ≠ 10 := hb
    unfold Framer.feed UsbCdcProtocolFramer.feed
    rw [if_pos hb', if_pos hb]
    by_cases ho : framer.oversized = true
    · simpa [ho, h.oversized.trans ho] using h
    · have hw : ¬ w.oversized = true := by rwa [h.oversized]
      have hheld := h.holds (Bool.eq_false_iff.mpr ho)
      rw [dif_neg hw]
      by_cases hroom : framer.lineLen < usbCdcProtocolMaxLineBytes + 1
      · rw [dif_pos (by omega)]
        have hnext := (hheld.feed hb).2
        rw [UsbCdcProtocolFramer.feed, if_pos hb] at hnext
        simp only [ho, Bool.false_eq_true, if_false, dif_pos hroom] at hnext ⊢
        constructor
        · show (w.line ++ [byte]).map (·.value) = _
          rw [hnext.line, List.take_of_length_le (by simp; omega)]
          simp
        · rfl
      · rw [dif_neg (by omega)]
        simp only [ho, Bool.false_eq_true, if_false, dif_neg hroom]
        exact ⟨h.line, rfl⟩

/-- What the worker hands on is what is to be read of the buffer. -/
theorem Framer.Frames.handed (h : w.Frames framer) (byte : BatchByte) :
    (w.feed byte).1.map (List.map (·.value)) = (framer.feed byte.value).1.text := by
  have hlen := h.length
  have hfits := framer.fits
  have hwhole : framer.lineLen = usbCdcProtocolMaxLineBytes + 1 →
      w.line.map (·.value) = framer.line.toList.take (usbCdcProtocolMaxLineBytes + 1) := fun hfull => by
    rw [h.line, hfull]
  by_cases hb : byte.value = newline
  · have hb' : ¬ byte.value ≠ 10 := not_not.mpr hb
    unfold Framer.feed UsbCdcProtocolFramer.feed
    rw [if_neg hb', if_neg (not_not.mpr hb)]
    by_cases ho : framer.oversized = true
    · have hw := h.oversized.trans ho
      rw [if_pos (Or.inl hw), if_pos (Or.inl ho)]
      exact congrArg some (hwhole (hlen ▸ w.full hw))
    · have hheld := h.holds (Bool.eq_false_iff.mpr ho)
      have hpay := hheld.payload (by simpa using w.length_le)
      have hmap := Framer.map_payload w.line
      have hcount : (Framer.payload w.line).length = framer.payloadLen := by
        rw [hpay.1, ← hmap, List.length_map]
      have hle : framer.payloadLen ≤ framer.lineLen := by
        rw [hpay.1, ← hlen]
        exact (length_stripCr _).2.trans (List.length_map _).le
      by_cases htoo : usbCdcProtocolMaxLineBytes < framer.payloadLen
      · rw [if_pos (Or.inr (by omega)), if_pos (Or.inr htoo)]
        exact congrArg some (hwhole (by omega))
      · rw [if_neg (by simp [h.oversized, ho]; omega), if_neg (by simp [ho]; omega)]
        exact congrArg some (hmap.trans hpay.2.symm)
  · have hb' : byte.value ≠ 10 := hb
    unfold Framer.feed UsbCdcProtocolFramer.feed
    rw [if_pos hb', if_pos hb]
    split
    · rfl
    · split <;> rfl

end Worker

end M5DayLog
