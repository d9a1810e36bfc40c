/-
# HDLC frames: the reader

`AsyncFrameReader` cuts a byte stream into frames. It asks the stream for one
byte at a time and keeps the frame read so far across suspensions, so its state
after some bytes depends on those bytes alone: outside a frame it is fresh, and
inside one it holds the bytes since the opening flag (`AsyncFrameReader.holding`).

The stream is given by what its polls return, one answer for each poll. A poll
of the reader consumes answers until it has a frame, an end or an error, or until
the stream is pending; running out of answers counts as pending.
-/

import Axsh.Hdlc.Codec

set_option autoImplicit false

namespace Axsh.Hdlc

/-- What polling the underlying stream for one byte returns. -/
inductive ReadResult
  | pending
  | error (kind : ErrorKind) (message : String)
  | eof
  | byte (byte : UInt8)
  deriving DecidableEq, Repr

/-- The frame reader: the frame so far, and whether a flag has opened it. -/
structure AsyncFrameReader where
  frame : Bytes
  inFrame : Bool
  deriving DecidableEq, Repr

namespace AsyncFrameReader

def new : AsyncFrameReader := { frame := [], inFrame := false }

end AsyncFrameReader

/-- `push_frame_byte`. -/
def pushFrameByte (frame : Bytes) (byte : UInt8) : Res Bytes :=
  if maxFrameSize ≤ frame.length then
    .error (.error .invalidData
      s!"HDLC frame exceeds maximum size of {maxFrameSize} bytes")
  else .ok (frame ++ [byte])

/-- The error of an end of stream inside a frame. -/
def eofInFrame : Failure := .error .unexpectedEof "EOF while reading HDLC frame"

namespace AsyncFrameReader

/-- One round of the loop in `poll_read_frame`: what it does with the answer of
the stream, and its return value if it does not go on with the loop. -/
def readOne (self : AsyncFrameReader) :
    ReadResult → AsyncFrameReader × Option (Poll (Res (Option Bytes)))
  | .pending => (self, some .pending)
  | .error kind message => (self, some (.ready (.error (.error kind message))))
  | .eof =>
    if self.inFrame then (self, some (.ready (.error eofInFrame)))
    else (self, some (.ready (.ok none)))
  | .byte byte =>
    if self.inFrame then
      -- The size is checked for every byte, also for the flag that would end the frame.
      match pushFrameByte self.frame byte with
      | .error e => (self, some (.ready (.error e)))
      | .ok frame =>
        -- `mem::take` leaves an empty frame behind.
        if byte = flag then
          ({ frame := [], inFrame := false }, some (.ready (.ok (some frame))))
        else ({ self with frame }, none)
    else if byte = flag then ({ frame := [byte], inFrame := true }, none)
    else (self, none)

/-- Poll one HDLC frame from an async byte stream. The second component is what
is left of the stream's answers. -/
def pollReadFrame (self : AsyncFrameReader) :
    List ReadResult → AsyncFrameReader × List ReadResult × Poll (Res (Option Bytes))
  | [] => (self, [], .pending)
  | answer :: rest =>
    match self.readOne answer with
    | (self, some result) => (self, rest, result)
    | (self, none) => self.pollReadFrame rest

/-! ## The reader's state as the bytes it has seen -/

/-- The reader that has seen `seen` since the last complete frame: nothing, or an
opening flag and the bytes after it. -/
def holding (seen : Bytes) : AsyncFrameReader :=
  { frame := seen, inFrame := !seen.isEmpty }

@[simp] theorem holding_nil : holding [] = new := rfl

@[simp] theorem holding_cons (byte : UInt8) (seen : Bytes) :
    holding (byte :: seen) = { frame := byte :: seen, inFrame := true } := rfl

theorem holding_of_ne_nil {seen : Bytes} (h : seen ≠ []) :
    holding seen = { frame := seen, inFrame := true } := by
  obtain ⟨byte, rest, rfl⟩ := List.exists_cons_of_ne_nil h
  rfl

/-- A flag outside a frame opens one. -/
theorem readOne_new_flag : new.readOne (.byte flag) = (holding [flag], none) := rfl

/-- Any other byte outside a frame is skipped. -/
theorem readOne_new_of_ne {byte : UInt8} (h : byte ≠ flag) :
    new.readOne (.byte byte) = (new, none) := by
  simp [readOne, new, h]

/-- Inside a frame that is not full, a byte other than the flag is kept. -/
theorem readOne_holding_of_ne {seen : Bytes} {byte : UInt8} (hseen : seen ≠ [])
    (hsize : seen.length < maxFrameSize) (h : byte ≠ flag) :
    (holding seen).readOne (.byte byte) = (holding (seen ++ [byte]), none) := by
  rw [holding_of_ne_nil hseen, holding_of_ne_nil (by simp)]
  simp [readOne, pushFrameByte, hsize.not_ge, h]

/-- Inside a frame that is not full, the flag ends it. -/
theorem readOne_holding_flag {seen : Bytes} (hseen : seen ≠ [])
    (hsize : seen.length < maxFrameSize) :
    (holding seen).readOne (.byte flag) = (new, some (.ready (.ok (some (seen ++ [flag]))))) := by
  rw [holding_of_ne_nil hseen]
  simp [readOne, pushFrameByte, hsize.not_ge, new]

/-- Reading on through bytes of a frame that hold no flag. -/
theorem pollReadFrame_holding_append {seen bytes : Bytes} (hseen : seen ≠ [])
    (hflag : flag ∉ bytes) (hsize : seen.length + bytes.length ≤ maxFrameSize)
    (rest : List ReadResult) :
    (holding seen).pollReadFrame (bytes.map .byte ++ rest) =
      (holding (seen ++ bytes)).pollReadFrame rest := by
  induction bytes generalizing seen with
  | nil => simp
  | cons byte bytes ih =>
    obtain ⟨hne, hflag⟩ := not_or.mp (List.mem_cons.not.mp hflag)
    simp only [List.length_cons] at hsize
    rw [List.map_cons, List.cons_append, pollReadFrame,
      readOne_holding_of_ne hseen (by omega) (Ne.symm hne)]
    simp only []
    rw [ih (by simp) hflag (by simp; omega), List.append_assoc, List.singleton_append]

/-- A reader part of the way through a frame reads on through bytes that do not
complete it. -/
theorem pollReadFrame_more {interior seen more later : Bytes} (hflag : flag ∉ interior)
    (hsize : interior.length + 2 ≤ maxFrameSize)
    (hsplit : seen ++ more ++ later = flag :: (interior ++ [flag])) (hlater : later ≠ [])
    (rest : List ReadResult) :
    (holding seen).pollReadFrame (more.map .byte ++ rest) =
      (holding (seen ++ more)).pollReadFrame rest := by
  have hlast := List.dropLast_concat_getLast hlater
  have hopened : seen ++ more ++ later.dropLast = flag :: interior := by
    rw [← hlast, ← List.append_assoc, ← List.cons_append] at hsplit
    exact (List.append_inj' hsplit rfl).1
  have hlen := congrArg List.length hopened
  simp only [List.length_append, List.length_cons] at hlen
  match seen, more, hopened, hlen with
  | [], [], _, _ => rfl
  | [], byte :: more, hopened, hlen =>
    -- The flag that opens the frame is the first byte read.
    obtain ⟨rfl, hinterior⟩ := List.cons.inj hopened
    have hmore : flag ∉ more := fun hmem =>
      hflag (hinterior ▸ List.mem_append_left _ hmem)
    simp only [List.length_nil, List.length_cons] at hlen
    rw [holding_nil, List.map_cons, List.cons_append, pollReadFrame, readOne_new_flag]
    simp only []
    rw [pollReadFrame_holding_append (by simp) hmore (by simp; omega)]
    rfl
  | first :: seen, more, hopened, hlen =>
    obtain ⟨-, hinterior⟩ := List.cons.inj hopened
    have hmore : flag ∉ more := fun hmem =>
      hflag (hinterior ▸ List.mem_append_left _ (List.mem_append_right _ hmem))
    simp only [List.length_cons] at hlen
    exact pollReadFrame_holding_append (by simp) hmore (by simp only [List.length_cons]; omega) rest

/-- A reader part of the way through a frame returns the frame when the rest of
it comes, and reads nothing past it. -/
theorem pollReadFrame_rest {interior seen bytes : Bytes} (hflag : flag ∉ interior)
    (hsize : interior.length + 2 ≤ maxFrameSize)
    (hsplit : seen ++ bytes = flag :: (interior ++ [flag])) (hbytes : bytes ≠ [])
    (rest : List ReadResult) :
    (holding seen).pollReadFrame (bytes.map .byte ++ rest) =
      (new, rest, .ready (.ok (some (flag :: (interior ++ [flag]))))) := by
  -- All but the last byte are read on through; the last one is the closing flag.
  have hlast := List.dropLast_concat_getLast hbytes
  rw [← hlast, ← List.append_assoc, ← List.cons_append] at hsplit
  obtain ⟨hopened, hend⟩ := List.append_inj' hsplit rfl
  have hinit : seen ++ bytes.dropLast ++ [flag] = flag :: (interior ++ [flag]) := by
    rw [hopened]
    rfl
  have hmore := pollReadFrame_more hflag hsize hinit (List.cons_ne_nil _ _)
    (.byte flag :: rest)
  rw [← hlast, hend, List.map_append, List.append_assoc]
  apply hmore.trans
  rw [hopened, pollReadFrame, readOne_holding_flag (by simp) (by simp; omega)]
  rfl

/-- A fresh reader returns the encoded frame that comes next. -/
theorem pollReadFrame_encode {payload : Bytes} (h : (encode payload).length ≤ maxFrameSize)
    (rest : List ReadResult) :
    new.pollReadFrame ((encode payload).map .byte ++ rest) =
      (new, rest, .ready (.ok (some (encode payload)))) := by
  rw [length_encode] at h
  rw [encode_eq]
  have hsplit : [] ++ flag :: (body payload ++ [flag]) = flag :: (body payload ++ [flag]) := rfl
  exact pollReadFrame_rest (flag_notMem_body payload) h hsplit (List.cons_ne_nil _ _) rest

/-- Splitting a frame at one of its bytes: it is the flag that opens the frame,
the one that closes it, or neither. -/
theorem split_encode {payload seen later : Bytes} {byte : UInt8}
    (hsplit : seen ++ byte :: later = encode payload) :
    (seen = [] → byte = flag) ∧ (later = [] → byte = flag) ∧
      (seen ≠ [] → later ≠ [] → byte ≠ flag) := by
  rw [encode_eq] at hsplit
  refine ⟨?_, ?_, ?_⟩
  · rintro rfl
    exact (List.cons.inj hsplit).1
  · rintro rfl
    exact (List.cons.inj (List.append_inj' (hsplit.trans (List.cons_append ..).symm) rfl).2).1
  · intro hseen hlater
    -- Between the first byte and the last one stands the body, which holds no flag.
    obtain ⟨first, seen, rfl⟩ := List.exists_cons_of_ne_nil hseen
    rw [← List.dropLast_concat_getLast hlater] at hsplit
    have hinner : (seen ++ byte :: later.dropLast) ++ [later.getLast hlater] =
        body payload ++ [flag] := by
      rw [List.append_assoc]
      exact (List.cons.inj hsplit).2
    have hbody := (List.append_inj' hinner rfl).1
    intro hflag
    exact flag_notMem_body payload (hbody ▸ List.mem_append_right _ (hflag ▸ List.mem_cons_self))

/-- A reader part of the way through a frame that fits keeps the next byte, unless
it is the last one. -/
theorem readOne_within {payload seen later : Bytes} {byte : UInt8}
    (hsize : (encode payload).length ≤ maxFrameSize)
    (hsplit : seen ++ byte :: later = encode payload) (hlater : later ≠ []) :
    (holding seen).readOne (.byte byte) = (holding (seen ++ [byte]), none) := by
  obtain ⟨hopens, -, hinner⟩ := split_encode hsplit
  by_cases hseen : seen = []
  · obtain rfl := hopens hseen
    rw [hseen]
    exact readOne_new_flag
  · rw [← hsplit, List.length_append, List.length_cons] at hsize
    exact readOne_holding_of_ne hseen (by omega) (hinner hseen hlater)

/-- With the last byte of a frame that fits, a reader returns the frame. -/
theorem readOne_last {payload seen : Bytes} {byte : UInt8}
    (hsize : (encode payload).length ≤ maxFrameSize) (hsplit : seen ++ [byte] = encode payload) :
    (holding seen).readOne (.byte byte) = (new, some (.ready (.ok (some (encode payload))))) := by
  obtain ⟨-, hcloses, -⟩ := split_encode hsplit
  obtain rfl := hcloses rfl
  have hseen : seen ≠ [] := by
    rintro rfl
    have hlen := congrArg List.length hsplit
    rw [length_encode] at hlen
    simp at hlen
  rw [← hsplit, List.length_append, List.length_singleton] at hsize
  rw [readOne_holding_flag hseen (by omega), hsplit]

/-- A poll that returns has consumed an answer of the stream. -/
theorem length_rest_lt {self self' : AsyncFrameReader} {answers rest : List ReadResult}
    {result : Res (Option Bytes)} (h : self.pollReadFrame answers = (self', rest, .ready result)) :
    rest.length < answers.length := by
  induction answers generalizing self with
  | nil => simp [pollReadFrame] at h
  | cons answer answers ih =>
    rw [pollReadFrame] at h
    split at h
    · simp only [Prod.mk.injEq] at h
      simp [← h.2.1]
    · exact (ih h).trans (by simp)

/-- What a round returns with a frame, it returns at a byte; at the end of the stream it
returns an end or an error, as it is outside or inside a frame. -/
theorem readOne_some {self next : AsyncFrameReader} {answer : ReadResult}
    {result : Poll (Res (Option Bytes))} (h : self.readOne answer = (next, some result)) :
    (answer = .eof →
      result = .ready (if next.inFrame then .error eofInFrame else .ok none)) ∧
    (result = .ready (.ok none) → answer = .eof ∧ next.inFrame = false) ∧
    ∀ frame, result = .ready (.ok (some frame)) → ∃ byte, answer = .byte byte := by
  cases answer with
  | pending =>
    obtain rfl := Option.some.inj (Prod.mk.inj h).2
    exact ⟨nofun, nofun, nofun⟩
  | error kind message =>
    obtain rfl := Option.some.inj (Prod.mk.inj h).2
    exact ⟨nofun, nofun, nofun⟩
  | eof =>
    cases hin : self.inFrame with
    | true =>
      simp only [readOne, hin, if_true, Prod.mk.injEq, Option.some.injEq] at h
      obtain ⟨rfl, rfl⟩ := h
      rw [hin]
      exact ⟨fun _ => rfl, nofun, nofun⟩
    | false =>
      simp only [readOne, hin, Bool.false_eq_true, if_false, Prod.mk.injEq,
        Option.some.injEq] at h
      obtain ⟨rfl, rfl⟩ := h
      rw [hin]
      exact ⟨fun _ => rfl, fun _ => ⟨rfl, rfl⟩, nofun⟩
  | byte byte =>
    refine ⟨nofun, ?_, fun _ _ => ⟨byte, rfl⟩⟩
    rintro rfl
    -- A byte ends a frame or is one byte too many; it is never the end of the stream.
    simp only [readOne, pushFrameByte] at h
    split_ifs at h <;> simp_all

/-- A round that goes on has not met the end of the stream. -/
theorem readOne_none {self next : AsyncFrameReader} {answer : ReadResult}
    (h : self.readOne answer = (next, none)) : answer ≠ .eof := by
  rintro rfl
  cases hin : self.inFrame <;> simp [readOne, hin] at h

/-- What a poll used of the answers, and how it ended: at the end of the stream it returns
an end or an error, as it is outside or inside a frame; it returns an end only there; and
it returns a frame at a byte. -/
theorem pollReadFrame_ends {self next : AsyncFrameReader} {answers rest : List ReadResult}
    {result : Poll (Res (Option Bytes))} (h : self.pollReadFrame answers = (next, rest, result)) :
    (∃ used, answers = used ++ rest) ∧
    (∀ front, answers = front ++ .eof :: rest →
      result = .ready (if next.inFrame then .error eofInFrame else .ok none)) ∧
    (result = .ready (.ok none) → next.inFrame = false ∧ ∃ front, answers = front ++ .eof :: rest) ∧
    ∀ frame, result = .ready (.ok (some frame)) →
      ∃ front byte, answers = front ++ .byte byte :: rest := by
  induction answers generalizing self with
  | nil =>
    obtain ⟨-, rfl, rfl⟩ : self = next ∧ [] = rest ∧ Poll.pending = result := by
      simpa [pollReadFrame] using h
    refine ⟨⟨[], rfl⟩, fun front hfront => ?_, nofun, nofun⟩
    exact absurd (congrArg List.length hfront) (by simp)
  | cons answer answers ih =>
    rw [pollReadFrame] at h
    -- Either this round ends the poll, and all that is used is its answer, or the rest of the poll
    -- is one of which the induction says the same.
    match hone : self.readOne answer with
    | (stopped, some out) =>
      simp only [hone, Prod.mk.injEq] at h
      obtain ⟨rfl, rfl, rfl⟩ := h
      obtain ⟨heof, hend, hframe⟩ := readOne_some hone
      refine ⟨⟨[answer], rfl⟩, fun front hfront => ?_, fun hout => ?_, fun frame hout => ?_⟩
      · have hlen := congrArg List.length hfront
        simp only [List.length_cons, List.length_append] at hlen
        obtain rfl := List.eq_nil_of_length_eq_zero (show front.length = 0 by omega)
        exact heof (List.cons.inj hfront).1
      · obtain ⟨rfl, hout⟩ := hend hout
        exact ⟨hout, [], rfl⟩
      · obtain ⟨byte, rfl⟩ := hframe frame hout
        exact ⟨[], byte, rfl⟩
    | (going, none) =>
      simp only [hone] at h
      obtain ⟨⟨used, hused⟩, heof, hend, hframe⟩ := ih h
      refine ⟨⟨answer :: used, congrArg (answer :: ·) hused⟩, fun front hfront => ?_,
        fun hout => ?_, fun frame hout => ?_⟩
      · match front, hfront with
        | [], hfront => exact absurd (List.cons.inj hfront).1 (readOne_none hone)
        | _ :: front, hfront => exact heof front (List.cons.inj hfront).2
      · obtain ⟨hout, front, hfront⟩ := hend hout
        exact ⟨hout, answer :: front, congrArg (answer :: ·) hfront⟩
      · obtain ⟨front, byte, hfront⟩ := hframe frame hout
        exact ⟨answer :: front, byte, congrArg (answer :: ·) hfront⟩

end AsyncFrameReader

/-- `read_frame_async`: what it makes of the reader's result. -/
def frameOrEof : Res (Option Bytes) → Res Bytes
  | .ok (some frame) => .ok frame
  | .ok none => .error eofInFrame
  | .error e => .error e

end Axsh.Hdlc
