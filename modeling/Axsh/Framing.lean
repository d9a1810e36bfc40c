/-
# Framing

What the frame readers and the frame codec make of a byte stream together. The
frames of payloads that fit are read back and decoded whatever stands between them,
and a frame that does not fit is refused by both. A frame that a reader returns has
a flag at both ends and none inside (`IsFrame`), so only the checks behind the
flags are left for `decode`. The converse fails for one kind of frame: `decode`
takes a flag for a masked byte when an escape stands before it.
-/

import Axsh.Hdlc.Stream

set_option autoImplicit false

namespace Axsh.Hdlc

/-! ## Lossless framing -/

/-- The frames of a stream are read back, with bytes that hold no flag between them:
all of them in order, and then the end, if they all fit, and otherwise those before
the first one that does not. That one is an error of the reader and of the decoder. -/
theorem framing_lossless (pieces : List Piece) (last : Bytes) (hlast : flag ∉ last) :
    ((∀ piece ∈ pieces, piece.frame.length ≤ maxFrameSize) →
      (∀ n, readFrames (pieces.length + n) (pieceStream pieces last) =
        pieces.map (fun piece => .ok (some piece.frame)) ++ List.replicate n (.ok none)) ∧
      ∀ piece ∈ pieces, decode piece.frame = .ok piece.payload) ∧
    ∀ front piece back, pieces = front ++ piece :: back →
      (∀ other ∈ front, other.frame.length ≤ maxFrameSize) →
      maxFrameSize < piece.frame.length →
      readFrames (front.length + 1) (pieceStream pieces last) =
          front.map (fun other => .ok (some other.frame)) ++ [.error frameTooLarge] ∧
        (∀ other ∈ front, decode other.frame = .ok other.payload) ∧
        decode piece.frame = bail "frame too large" := by
  refine ⟨fun hfits => ⟨fun n => ?_, fun piece hmem => decode_encode (hfits piece hmem)⟩, ?_⟩
  · -- The bytes behind the last frame hold no flag, so the next call meets the end of the stream
    -- outside a frame.
    have hend : readFrame (streamOf last) = ([], .ok none) := by
      have hskip := readFrame_skip hlast []
      rwa [List.append_nil] at hskip
    have hread := readFrames_append pieces [] last n hfits
    rw [List.append_nil] at hread
    rw [hread]
    cases n with
    | zero => rfl
    | succ n =>
      have hcalls : readFrames (n + 1) (pieceStream [] last) =
          (readFrame (streamOf last)).2 :: readFrames n (readFrame (streamOf last)).1 := rfl
      rw [hcalls, hend, readFrames_end, List.replicate_succ]
  · rintro front piece back rfl hfits hsize
    refine ⟨?_, fun other hmem => decode_encode (hfits other hmem), decode_oversize hsize⟩
    -- The junk before the frame is skipped, and the frame is given up at its largest size.
    have hcall : (readFrame (pieceStream (piece :: back) last)).2 = .error frameTooLarge := by
      rw [pieceStream_cons, readFrame_skip piece.flag_notMem_junk]
      exact readFrame_oversize hsize _
    rw [readFrames_append front (piece :: back) last 1 hfits, ← hcall]
    rfl

/-- Two sample pieces, of which the second is too large. -/
def samplePieces : List Piece :=
  [⟨[1, 2], [7, 8], by decide⟩, ⟨[3], List.replicate maxFrameSize 0, by decide⟩]

/-- The first frame of the sample is read, and then the reader and the decoder fail. -/
theorem framing_lossless_sample :
    readFrames 2 (pieceStream samplePieces [4]) =
        [.ok (some (encode [7, 8])), .error frameTooLarge] ∧
      decode (encode (List.replicate maxFrameSize 0)) = bail "frame too large" := by
  obtain ⟨-, hoversize⟩ := framing_lossless samplePieces [4] (by decide)
  have hlength : maxFrameSize < (encode (List.replicate maxFrameSize 0)).length := by
    rw [length_encode, length_body, List.length_replicate]
    omega
  have hfits : (encode [7, 8]).length ≤ maxFrameSize := length_encode_le_max (by decide)
  obtain ⟨hread, -, hdecode⟩ := hoversize [⟨[1, 2], [7, 8], by decide⟩] _ [] rfl
    (fun other hmem => (List.mem_singleton.mp hmem) ▸ hfits) hlength
  exact ⟨hread, hdecode⟩

/-! ## What the readers return -/

/-- A frame as the readers return it. -/
structure IsFrame (frame : Bytes) : Prop where
  flagged : ∃ interior, frame = flag :: (interior ++ [flag]) ∧ flag ∉ interior
  size : frame.length ≤ maxFrameSize

/-- What a reader holds between two bytes: nothing, or the front of a frame. -/
def Framing (seen : Bytes) : Prop :=
  seen = [] ∨ (∃ interior, seen = flag :: interior ∧ flag ∉ interior) ∧ seen.length ≤ maxFrameSize

namespace AsyncFrameReader

/-- What one answer of the stream does: the reader still holds the front of a frame,
and what it returns is a frame. -/
theorem readOne_framing {seen : Bytes} (h : Framing seen) (answer : ReadResult) :
    ∃ seen', ((holding seen).readOne answer).1 = holding seen' ∧ Framing seen' ∧
      ∀ frame, ((holding seen).readOne answer).2 = some (.ready (.ok (some frame))) →
        IsFrame frame := by
  cases answer with
  | pending => exact ⟨seen, rfl, h, fun _ hout => by cases hout⟩
  | error kind message => exact ⟨seen, rfl, h, fun _ hout => by cases hout⟩
  | eof =>
    rcases h with rfl | ⟨⟨interior, rfl, hflag⟩, hsize⟩
    · exact ⟨[], rfl, .inl rfl, fun _ hout => by cases hout⟩
    · exact ⟨_, rfl, .inr ⟨⟨interior, rfl, hflag⟩, hsize⟩, fun _ hout => by cases hout⟩
  | byte byte =>
    rcases h with rfl | ⟨⟨interior, rfl, hflag⟩, hsize⟩
    · -- Outside a frame only a flag counts.
      by_cases hbyte : byte = flag
      · subst hbyte
        refine ⟨[flag], rfl, .inr ⟨⟨[], rfl, List.not_mem_nil⟩, by decide⟩, ?_⟩
        intro frame hout
        cases hout
      · rw [holding_nil, readOne_new_of_ne hbyte]
        exact ⟨[], rfl, .inl rfl, fun _ hout => by cases hout⟩
    · -- Inside a frame the size is checked before the byte is looked at, also for a closing flag.
      by_cases hfull : maxFrameSize ≤ (flag :: interior).length
      · have hpush : pushFrameByte (flag :: interior) byte = .error frameTooLarge := if_pos hfull
        refine ⟨flag :: interior, ?_, .inr ⟨⟨interior, rfl, hflag⟩, hsize⟩, ?_⟩
        · simp only [readOne, holding_cons, if_true, hpush]
        · intro frame hout
          simp only [readOne, holding_cons, if_true, hpush] at hout
          cases hout
      · have hroom := Nat.lt_of_not_le hfull
        by_cases hbyte : byte = flag
        · subst hbyte
          rw [readOne_holding_flag (List.cons_ne_nil _ _) hroom]
          refine ⟨[], rfl, .inl rfl, ?_⟩
          rintro frame ⟨⟩
          refine ⟨⟨interior, rfl, hflag⟩, ?_⟩
          rw [List.length_append, List.length_singleton]
          exact hroom
        · rw [readOne_holding_of_ne (List.cons_ne_nil _ _) hroom hbyte]
          refine ⟨_, rfl, .inr ⟨⟨interior ++ [byte], rfl, ?_⟩, ?_⟩, fun _ hout => by cases hout⟩
          · rw [List.mem_append, List.mem_singleton, not_or]
            exact ⟨hflag, Ne.symm hbyte⟩
          · rw [List.length_append, List.length_singleton]
            exact hroom

/-- A poll, over any answers of the stream. -/
theorem pollReadFrame_framing {seen : Bytes} (h : Framing seen) (answers : List ReadResult) :
    ∃ seen', ((holding seen).pollReadFrame answers).1 = holding seen' ∧ Framing seen' ∧
      ∀ frame, ((holding seen).pollReadFrame answers).2.2 = .ready (.ok (some frame)) →
        IsFrame frame := by
  induction answers generalizing seen with
  | nil => exact ⟨seen, rfl, h, fun _ hout => by cases hout⟩
  | cons answer answers ih =>
    obtain ⟨seen', hnext, hframing, hreturns⟩ := readOne_framing h answer
    rw [pollReadFrame]
    cases hone : (holding seen).readOne answer with
    | mk next out =>
      rw [hone] at hnext hreturns
      cases out with
      -- The poll stops where a round returns, and goes on with the next answer where it does not.
      | some result => exact ⟨seen', hnext, hframing, fun frame hout =>
        hreturns frame (congrArg some hout)⟩
      | none =>
        simp only at hnext
        simp only [hnext]
        exact ih hframing

/-- The reader after some polls. -/
def after (self : AsyncFrameReader) (polls : List (List ReadResult)) : AsyncFrameReader :=
  polls.foldl (fun reader answers => (reader.pollReadFrame answers).1) self

/-- After any polls, a new reader holds the front of a frame. -/
theorem after_framing (polls : List (List ReadResult)) :
    ∃ seen, new.after polls = holding seen ∧ Framing seen := by
  induction polls using List.reverseRecOn with
  | nil => exact ⟨[], rfl, .inl rfl⟩
  | append_singleton polls answers ih =>
    obtain ⟨seen, hafter, hframing⟩ := ih
    obtain ⟨seen', hnext, hframing', -⟩ := pollReadFrame_framing hframing answers
    refine ⟨seen', ?_, hframing'⟩
    rw [after, List.foldl_append, List.foldl_cons, List.foldl_nil]
    exact (congrArg (fun reader => (reader.pollReadFrame answers).1) hafter).trans hnext

end AsyncFrameReader

/-- A poll of a reader returns frames only. -/
theorem isFrame_of_poll {polls : List (List ReadResult)} {answers : List ReadResult} {frame : Bytes}
    (h : ((AsyncFrameReader.new.after polls).pollReadFrame answers).2.2 =
      .ready (.ok (some frame))) : IsFrame frame := by
  obtain ⟨seen, hafter, hframing⟩ := AsyncFrameReader.after_framing polls
  obtain ⟨-, -, -, hreturns⟩ := AsyncFrameReader.pollReadFrame_framing hframing answers
  rw [hafter] at h
  exact hreturns frame h

/-- So does `read_frame`. -/
theorem isFrame_of_readFrame {stream : List BlockingRead} {frame : Bytes}
    (h : (readFrame stream).2 = .ok (some frame)) : IsFrame frame := by
  rcases readFrameLoop_eq .new stream with ⟨next, rest, result, hpoll, hrun⟩ | ⟨next, hpoll, hrun⟩
  · have hresult : result = .ok (some frame) := by
      rw [← h]
      exact (congrArg Prod.snd hrun).symm
    have hout : ((AsyncFrameReader.new.after []).pollReadFrame
        (stream.map BlockingRead.polled)).2.2 = .ready (.ok (some frame)) := by
      rw [← hresult]
      exact congrArg (fun out => out.2.2) hpoll
    exact isFrame_of_poll hout
  · have hresult : readEnd next.inFrame = .ok (some frame) := by
      rw [← h]
      exact (congrArg Prod.snd hrun).symm
    unfold readEnd at hresult
    split_ifs at hresult
    cases hresult

/-! ## What is left for the decoder -/

/-- The errors of `decode` that are not about flags or the largest size. -/
def remainingErrors : List String :=
  ["frame too short", "frame ends with dangling escape", "frame missing FCS", "frame FCS mismatch"]

/-- Of a frame's errors, the end of `decode` gives these. -/
theorem checkFcs_cases (unescaped : Bytes) :
    (∃ payload, checkFcs unescaped = .ok payload) ∨
      ∃ message ∈ remainingErrors, checkFcs unescaped = bail message := by
  by_cases hlen : 2 ≤ unescaped.length
  · have hpayload : unescaped.length - 2 ≤ unescaped.length := Nat.sub_le ..
    unfold checkFcs
    rw [ensure_pos _ hlen, ok_bind, usizeSub_eq hlen, ok_bind, slice_eq (Nat.zero_le _) hpayload,
      ok_bind, index_eq (by omega), ok_bind, index_eq (by omega), ok_bind]
    by_cases hfcs : frameFcs ((unescaped.take (unescaped.length - 2)).drop 0) =
        u16FromLeBytes unescaped[unescaped.length - 2] unescaped[unescaped.length - 2 + 1]
    · rw [ensure_pos _ hfcs]
      exact .inl ⟨_, rfl⟩
    · rw [ensure_neg _ hfcs]
      exact .inr ⟨"frame FCS mismatch", by decide, rfl⟩
  · refine .inr ⟨"frame missing FCS", by decide, ?_⟩
    rw [checkFcs, ensure_neg _ hlen]
    rfl

/-- On a frame that a reader returns, the checks of the flags and of the largest size
pass: `decode` returns a payload, or one of its other errors. -/
theorem IsFrame.decode_cases {frame : Bytes} (h : IsFrame frame) :
    (∃ payload, decode frame = .ok payload) ∨
      ∃ message ∈ remainingErrors, decode frame = bail message := by
  obtain ⟨interior, rfl, hflag⟩ := h.flagged
  have hsize := h.size
  by_cases hlen : 4 ≤ (flag :: (interior ++ [flag])).length
  · -- The body between the flags holds no flag, so unescaping does not meet one.
    rw [List.length_cons, List.length_append, List.length_singleton] at hsize hlen
    rw [decode_flagged hsize (by omega), unescapeLoop_eq]
    cases hscan : stuffing.scan false interior with
    | none => exact absurd (stuffing.flag_mem_of_scan_eq_none hscan) hflag
    | some read =>
      obtain ⟨unescaped, escaped⟩ := read
      simp only [List.nil_append, ok_bind]
      cases escaped with
      | true => exact .inr ⟨"frame ends with dangling escape", by decide, rfl⟩
      | false =>
        rw [ensure_pos _ rfl, ok_bind]
        exact checkFcs_cases unescaped
  · refine .inr ⟨"frame too short", by decide, ?_⟩
    rw [decode, ensure_pos _ hsize, ok_bind, ensure_neg _ hlen]
    rfl

/-! ## What the decoder accepts -/

/-- What is expected of `decode` on `frame`: if it returns a payload, no flag stands
inside, so that `read_frame` on these bytes returns exactly them and leaves nothing. -/
def DecodeSound (frame : Bytes) : Prop :=
  ∀ payload, decode frame = .ok payload →
    flag ∉ frame.tail.dropLast ∧ readFrame (streamOf frame) = ([], .ok (some frame))

/-- Bytes between two flags that fit and end, unstuffed, with their check sequence, and
in which a flag stands right after an escape. -/
def MasksFlag (frame : Bytes) : Prop :=
  frame.length ≤ maxFrameSize ∧ ∃ interior payload, frame = flag :: (interior ++ [flag]) ∧
    stuffing.scan false interior = some (payload ++ u16ToLeBytes (frameFcs payload), false) ∧
    stuffing.EscapesFlag false interior

theorem interior_flagged (interior : Bytes) :
    (flag :: (interior ++ [flag])).tail.dropLast = interior :=
  List.dropLast_concat

/-- A frame without a flag inside is what `read_frame` returns. -/
theorem readFrame_flagged {interior : Bytes} (hflag : flag ∉ interior)
    (hsize : (flag :: (interior ++ [flag])).length ≤ maxFrameSize) :
    readFrame (streamOf (flag :: (interior ++ [flag]))) =
      ([], .ok (some (flag :: (interior ++ [flag])))) := by
  rw [List.length_cons, List.length_append, List.length_singleton] at hsize
  have hpoll := AsyncFrameReader.pollReadFrame_rest hflag hsize (List.nil_append _)
    (List.cons_ne_nil _ _) []
  rw [← map_polled_streamOf, List.append_nil] at hpoll
  exact readFrame_of_poll hpoll

theorem decodeSound_iff (frame : Bytes) : DecodeSound frame ↔ ¬ MasksFlag frame := by
  constructor
  · rintro hsound ⟨hsize, interior, payload, rfl, hscan, hescapes⟩
    have hdecode := (decode_eq_ok_iff _ payload).mpr ⟨hsize, interior, rfl, hscan⟩
    obtain ⟨hflag, -⟩ := hsound payload hdecode
    rw [interior_flagged] at hflag
    exact hflag ((stuffing.flag_mem_iff_of_scan hscan).mpr hescapes)
  · intro hmasks payload hdecode
    obtain ⟨hsize, interior, rfl, hscan⟩ := (decode_eq_ok_iff _ _).mp hdecode
    have hflag : flag ∉ interior := fun hmem =>
      hmasks ⟨hsize, interior, payload, rfl, hscan, (stuffing.flag_mem_iff_of_scan hscan).mp hmem⟩
    exact ⟨(interior_flagged interior).symm ▸ hflag, readFrame_flagged hflag hsize⟩

/-- A call of `read_frame` or a poll of a frame reader returns this frame. -/
def Returned (frame : Bytes) : Prop :=
  (∃ stream, (readFrame stream).2 = .ok (some frame)) ∨
    ∃ polls answers, ((AsyncFrameReader.new.after polls).pollReadFrame answers).2.2 =
      .ready (.ok (some frame))

/-- The decoder and the readers agree except on frames in which a flag is masked:
`decode` accepts only what `read_frame` returns exactly if it does not meet one, and
what a reader returns has none of the errors about flags or the largest size. -/
theorem decode_readers (frame : Bytes) :
    (DecodeSound frame ↔ ¬ MasksFlag frame) ∧
    (Returned frame → IsFrame frame ∧
      ((∃ payload, decode frame = .ok payload) ∨
        ∃ message ∈ remainingErrors, decode frame = bail message)) := by
  refine ⟨decodeSound_iff frame, fun hreturned => ?_⟩
  have hframe : IsFrame frame := by
    rcases hreturned with ⟨stream, h⟩ | ⟨polls, answers, h⟩
    · exact isFrame_of_readFrame h
    · exact isFrame_of_poll h
  exact ⟨hframe, hframe.decode_cases⟩

/-- The frame of the byte `5e`, with a flag for the masked form of that byte. -/
def maskedFlagFrame : Bytes := [flag, escape, flag] ++ u16ToLeBytes (frameFcs [0x5e]) ++ [flag]

/-- It is decoded, and `read_frame` returns only the front of it. -/
theorem not_decodeSound_maskedFlagFrame :
    decode maskedFlagFrame = .ok [0x5e] ∧
      (readFrame (streamOf maskedFlagFrame)).2 = .ok (some [flag, escape, flag]) ∧
      ¬ DecodeSound maskedFlagFrame := by
  have hdecode : decode maskedFlagFrame = .ok [0x5e] := by decide
  have hread : (readFrame (streamOf maskedFlagFrame)).2 = .ok (some [flag, escape, flag]) := by
    decide
  refine ⟨hdecode, hread, fun hsound => ?_⟩
  have hflag : flag ∈ maskedFlagFrame.tail.dropLast := by decide
  exact (hsound _ hdecode).1 hflag

end Axsh.Hdlc
