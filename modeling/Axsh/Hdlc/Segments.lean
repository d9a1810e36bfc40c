/-
# Frames as the gaps between flags

A frame reader takes flags in turn for the opening and the closing flag of a frame, so
what it returns for a whole stream is read off the gaps between the flags: every second
gap is a frame (`delimited`). Nothing in the bytes tells an opening flag from a closing
one. One flag too many between two frames therefore shifts the reader by a gap: it
returns the empty gaps between the frames behind it and none of the frames themselves
(`stray_flags`).
-/

import Axsh.Hdlc.Agree
import Axsh.Lib.Lines

set_option autoImplicit false

namespace Axsh.Hdlc

/-- What the calls of a frame reader return for gaps between flags and the bytes behind
the last flag, from outside or inside a frame up to the first call without a frame. -/
def delimited (last : Bytes) : Bool → List Bytes → List (Res (Option Bytes))
  | false, [] => [.ok none]
  | false, _ :: gaps => delimited last true gaps
  | true, [] => [.error (if maxFrameSize ≤ last.length then frameTooLarge else eofInFrame)]
  | true, gap :: gaps =>
    if gap.length + 2 ≤ maxFrameSize then
      .ok (some (flag :: (gap ++ [flag]))) :: delimited last false gaps
    else [.error frameTooLarge]

/-! ## The reader on gaps -/

/-- A stream that ends inside a frame has ended too early, unless the frame has become
too large before. -/
theorem readFrameLoop_unclosed {seen last : Bytes} (hflag : flag ∉ last)
    (hseen : seen.length ≤ maxFrameSize) :
    (readFrameLoop seen true (streamOf last)).2 =
      .error (if maxFrameSize < seen.length + last.length then frameTooLarge else eofInFrame) := by
  by_cases hsize : maxFrameSize < seen.length + last.length
  · have hlast : last ≠ [] := by
      rintro rfl
      rw [List.length_nil] at hsize
      omega
    have hinit := List.dropLast_concat_getLast hlast
    have hflag' : flag ∉ last.dropLast := fun hmem => hflag (List.dropLast_subset _ hmem)
    rw [if_pos hsize, ← hinit, streamOf_append]
    apply readFrameLoop_of_full hflag'
    rw [List.length_dropLast]
    omega
  · rw [if_neg hsize]
    induction last generalizing seen with
    | nil => rfl
    | cons byte last ih =>
      obtain ⟨hne, hrest⟩ := not_or.mp (List.mem_cons.not.mp hflag)
      rw [List.length_cons] at hsize
      have hpush : pushFrameByte seen byte = .ok (seen ++ [byte]) := if_neg (by omega)
      simp only [streamOf, List.map_cons, readFrameLoop, if_true, hpush, if_neg (Ne.symm hne)]
      have hlength : (seen ++ [byte]).length = seen.length + 1 := List.length_append
      exact ih hrest (by omega) (by omega)

/-- The next gap is junk and the one behind it a frame, if it fits. -/
theorem readFrame_gap {junk gap : Bytes} (hjunk : flag ∉ junk) (hgap : flag ∉ gap)
    (hsize : gap.length + 2 ≤ maxFrameSize) (rest : Bytes) :
    readFrame (streamOf (junk ++ flag :: (gap ++ flag :: rest))) =
      (streamOf rest, .ok (some (flag :: (gap ++ [flag])))) := by
  have hbytes : flag :: (gap ++ flag :: rest) = flag :: (gap ++ [flag]) ++ rest := by simp
  have hpoll := AsyncFrameReader.pollReadFrame_rest hgap hsize (List.nil_append _)
    (List.cons_ne_nil _ _) ((streamOf rest).map BlockingRead.polled)
  rw [streamOf_append, readFrame_skip hjunk, hbytes]
  apply readFrame_of_poll
  rw [streamOf_append, List.map_append, map_polled_streamOf]
  exact hpoll

/-- A gap that does not fit is an error. -/
theorem readFrame_gap_oversize {junk gap : Bytes} (hjunk : flag ∉ junk) (hgap : flag ∉ gap)
    (hsize : maxFrameSize < gap.length + 2) (rest : Bytes) :
    (readFrame (streamOf (junk ++ flag :: (gap ++ flag :: rest)))).2 = .error frameTooLarge := by
  have hfull : maxFrameSize ≤ [flag].length + gap.length := by
    rw [List.length_singleton]
    omega
  have hloop : (readFrameLoop [flag] true (streamOf gap ++ .byte flag :: streamOf rest)).2 =
      .error frameTooLarge := readFrameLoop_of_full hgap hfull (streamOf rest)
  rw [← hloop, streamOf_append, readFrame_skip hjunk, ← List.singleton_append, streamOf_append,
    streamOf_append]
  rfl

theorem map_fst_readAll_error {stream : List BlockingRead} {e : Failure}
    (h : (readFrame stream).2 = .error e) : (readAll stream).map Prod.fst = [.error e] := by
  have hread : readFrame stream = ((readFrame stream).1, .error e) := Prod.ext rfl h
  rw [readAll_last hread nofun]
  rfl

/-- Over any stream, calls of `read_frame` return every second gap between its flags. -/
theorem readAll_join (gaps : List Bytes) (hgaps : Lines.Clean flag gaps) {last : Bytes}
    (hlast : flag ∉ last) :
    (readAll (streamOf (Lines.join flag gaps ++ last))).map Prod.fst =
      delimited last false gaps := by
  match gaps with
  | [] =>
    have hread : readFrame (streamOf last) = ([], .ok none) := by
      have hskip := readFrame_skip hlast []
      rwa [List.append_nil] at hskip
    rw [Lines.join_nil, List.nil_append, readAll_last hread nofun]
    rfl
  | [junk] =>
    have hjunk : flag ∉ junk := hgaps junk List.mem_cons_self
    have hread : (readFrame (streamOf (Lines.join flag [junk] ++ last))).2 =
        .error (if maxFrameSize < [flag].length + last.length then frameTooLarge
          else eofInFrame) := by
      rw [← readFrameLoop_unclosed hlast (by decide), Lines.join_cons, Lines.join_nil,
        List.append_assoc, streamOf_append, readFrame_skip hjunk]
      rfl
    rw [map_fst_readAll_error hread]
    simp only [List.length_singleton, Nat.lt_one_add_iff]
    rfl
  | junk :: gap :: gaps =>
    have hjunk : flag ∉ junk := hgaps junk List.mem_cons_self
    have hgap : flag ∉ gap := hgaps gap (List.mem_cons_of_mem _ List.mem_cons_self)
    have hrest : Lines.Clean flag gaps := fun other hmem =>
      hgaps other (List.mem_cons_of_mem _ (List.mem_cons_of_mem _ hmem))
    have hbytes : Lines.join flag (junk :: gap :: gaps) ++ last =
        junk ++ flag :: (gap ++ flag :: (Lines.join flag gaps ++ last)) := by simp
    by_cases hsize : gap.length + 2 ≤ maxFrameSize
    · rw [hbytes, readAll_frame (readFrame_gap hjunk hgap hsize _), List.map_cons,
        readAll_join gaps hrest hlast, delimited, delimited, if_pos hsize]
    · have hread := readFrame_gap_oversize hjunk hgap (Nat.lt_of_not_le hsize)
        (Lines.join flag gaps ++ last)
      rw [hbytes, map_fst_readAll_error hread, delimited, delimited, if_neg hsize]

/-- Wherever the stream suspends them, the readers return what `read_frame` returns. -/
theorem map_fst_readAll_schedules {answers : List ReadResult} {bytes : Bytes}
    (h : Schedules answers bytes) :
    (AsyncFrameReader.new.readAll answers).map Prod.fst =
        (readAll (streamOf bytes)).map Prod.fst ∧
      (readAllAsync answers).map Prod.fst =
        ((readAll (streamOf bytes)).map Prod.fst).map frameOrEof := by
  induction hlength : bytes.length using Nat.strong_induction_on generalizing answers bytes with
  | h n ih =>
    obtain ⟨next, rest, left, result, hpolled, hread, -, hframe⟩ := pollUntilReady_eq h .new
    by_cases hlast : ∀ frame, result ≠ .ok (some frame)
    · rw [AsyncFrameReader.readAll_last hpolled hlast, readAllAsync_last hpolled hlast,
        readAll_last hread hlast]
      exact ⟨rfl, rfl⟩
    · -- Behind a frame the reader is new again, and fewer bytes are left.
      push Not at hlast
      obtain ⟨frame, rfl⟩ := hlast
      obtain ⟨rfl, hmore⟩ := hframe frame rfl
      have hlt := length_lt_of_readFrameLoop hread
      rw [streamOf, streamOf, List.length_map, List.length_map, hlength] at hlt
      obtain ⟨hone, hfresh⟩ := ih left.length hlt hmore rfl
      rw [AsyncFrameReader.readAll_frame hpolled, readAllAsync_frame hpolled, readAll_frame hread]
      exact ⟨congrArg (Except.ok (some frame) :: ·) hone,
        congrArg (frameOrEof (.ok (some frame)) :: ·) hfresh⟩

/-- Every second gap between the flags of the bytes of a stream is a frame. -/
theorem map_fst_readAll_split {answers : List ReadResult} {bytes : Bytes}
    (h : Schedules answers bytes) :
    (AsyncFrameReader.new.readAll answers).map Prod.fst =
      delimited (Lines.split flag bytes).2 false (Lines.split flag bytes).1 := by
  have hblocking := readAll_join _ (Lines.clean_split flag bytes)
    (Lines.notMem_split_snd flag bytes)
  rw [Lines.join_split] at hblocking
  rw [← hblocking]
  exact (map_fst_readAll_schedules h).1

/-- The gaps between the flags of some bytes decide what a frame reader returns for
them, wherever the stream suspends it: every second gap is a frame, up to the first that
is too large, and the number of the flags decides whether the stream ends outside a frame.
So it is for one reader and, with the end an error, for readers new for each frame. -/
theorem readers_delimited {answers : List ReadResult} {bytes : Bytes}
    (h : Schedules answers bytes) :
    (AsyncFrameReader.new.readAll answers).map Prod.fst =
        delimited (Lines.split flag bytes).2 false (Lines.split flag bytes).1 ∧
      (readAllAsync answers).map Prod.fst =
        (delimited (Lines.split flag bytes).2 false (Lines.split flag bytes).1).map frameOrEof := by
  have hone := map_fst_readAll_split h
  obtain ⟨hblocking, hfresh⟩ := map_fst_readAll_schedules h
  rw [← hblocking, hone] at hfresh
  exact ⟨hone, hfresh⟩

/-- Four gaps and a rest: one frame, and a second that the stream does not close. -/
theorem readers_delimited_sample :
    (AsyncFrameReader.new.readAll ([1, flag, 2, flag].map .byte ++
        .pending :: ([3, flag, 4].map .byte ++ [.eof]))).map Prod.fst =
      [.ok (some [flag, 2, flag]), .error eofInFrame] := by
  have hschedules : Schedules
      ([1, flag, 2, flag].map .byte ++ .pending :: ([3, flag, 4].map .byte ++ [.eof]))
      [1, flag, 2, flag, 3, flag, 4] := rfl
  exact (readers_delimited hschedules).1

/-! ## Stray flags -/

/-- What stands between the flags of some frames: nothing in front of each, and its
body. -/
def gapsOf (payloads : List Bytes) : List Bytes :=
  payloads.flatMap fun payload => [[], body payload]

theorem gapsOf_cons (payload : Bytes) (payloads : List Bytes) :
    gapsOf (payload :: payloads) = [] :: body payload :: gapsOf payloads := rfl

theorem join_gapsOf (payloads : List Bytes) :
    Lines.join flag (gapsOf payloads) = payloads.flatMap encode := by
  induction payloads with
  | nil => rfl
  | cons payload payloads ih =>
    rw [gapsOf_cons, Lines.join_cons, Lines.join_cons, ih, List.flatMap_cons, encode_eq]
    simp

theorem clean_gapsOf (payloads : List Bytes) : Lines.Clean flag (gapsOf payloads) := by
  intro gap hmem
  obtain ⟨payload, -, hgap⟩ := List.mem_flatMap.mp hmem
  rcases List.mem_cons.mp hgap with rfl | hgap
  · exact List.not_mem_nil
  · rw [List.mem_singleton.mp hgap]
    exact flag_notMem_body payload

/-- Flags in a row, as gaps. -/
theorem join_replicate (k : ℕ) :
    Lines.join flag (List.replicate k []) = List.replicate k flag := by
  induction k with
  | zero => rfl
  | succ k ih =>
    rw [List.replicate_succ, Lines.join_cons, ih]
    rfl

/-- The result for a frame. -/
def returned (payload : Bytes) : Res (Option Bytes) := .ok (some (encode payload))

/-- The result for two flags in a row. -/
def emptyFrame : Bytes := [flag, flag]

/-- No payload comes out of it. -/
theorem decode_emptyFrame : decode emptyFrame = bail "frame too short" := by decide

section Delimited

variable {payloads : List Bytes} {last : Bytes}

/-- From outside a frame, the gaps of frames are those frames. -/
theorem delimited_gapsOf (hfits : ∀ payload ∈ payloads, (encode payload).length ≤ maxFrameSize)
    (gaps : List Bytes) :
    delimited last false (gapsOf payloads ++ gaps) =
      payloads.map returned ++ delimited last false gaps := by
  induction payloads with
  | nil => rfl
  | cons payload payloads ih =>
    have hsize := hfits payload List.mem_cons_self
    rw [length_encode] at hsize
    rw [gapsOf_cons, List.cons_append, List.cons_append, delimited, delimited, if_pos hsize,
      ih fun other hmem => hfits other (List.mem_cons_of_mem _ hmem), ← encode_eq]
    rfl

/-- From inside a frame, the gaps in front of the frames are taken for frames, and their
bodies for junk. -/
theorem delimited_gapsOf_shifted (payloads : List Bytes) :
    delimited [] true (gapsOf payloads) =
      List.replicate payloads.length (.ok (some emptyFrame)) ++ [.error eofInFrame] := by
  induction payloads with
  | nil => rfl
  | cons payload payloads ih =>
    rw [gapsOf_cons, delimited, if_pos (by decide), delimited, ih]
    rfl

/-- An even number of flags in a row is taken for frames with nothing in them. -/
theorem delimited_replicate (m : ℕ) (gaps : List Bytes) :
    delimited last false (List.replicate (2 * m) [] ++ gaps) =
      List.replicate m (.ok (some emptyFrame)) ++ delimited last false gaps := by
  induction m with
  | zero => rfl
  | succ m ih =>
    have hgaps : List.replicate (2 * (m + 1)) ([] : Bytes) ++ gaps =
        [] :: [] :: (List.replicate (2 * m) [] ++ gaps) := rfl
    rw [hgaps, delimited, delimited, if_pos (by decide), ih]
    rfl

end Delimited

/-- With flags between two frames of a stream, the frames in front of them are returned,
and every two of the flags as a frame with nothing in it. Behind an even number of them
come the other frames. Behind an odd number no frame is ever returned again, however many
follow: one empty frame for each, and at the end of the stream an error. -/
theorem stray_flags {front back : List Bytes}
    (hfits : ∀ payload ∈ front ++ back, (encode payload).length ≤ maxFrameSize) (k : ℕ)
    {answers : List ReadResult}
    (h : Schedules answers
      (front.flatMap encode ++ (List.replicate k flag ++ back.flatMap encode))) :
    (AsyncFrameReader.new.readAll answers).map Prod.fst =
        front.map returned ++ (List.replicate (k / 2) (.ok (some emptyFrame)) ++
          if k % 2 = 0 then back.map returned ++ [.ok none]
          else List.replicate back.length (.ok (some emptyFrame)) ++ [.error eofInFrame]) ∧
      decode emptyFrame = bail "frame too short" := by
  have hfront : ∀ payload ∈ front, (encode payload).length ≤ maxFrameSize := fun payload hmem =>
    hfits payload (List.mem_append_left _ hmem)
  have hback : ∀ payload ∈ back, (encode payload).length ≤ maxFrameSize := fun payload hmem =>
    hfits payload (List.mem_append_right _ hmem)
  -- The stream ends with a flag, so it is all gaps.
  have hclean : Lines.Clean flag (gapsOf front ++ (List.replicate k [] ++ gapsOf back)) := by
    refine (clean_gapsOf front).append (Lines.Clean.append ?_ (clean_gapsOf back))
    intro gap hmem
    rw [List.eq_of_mem_replicate hmem]
    exact List.not_mem_nil
  have hsplit := Lines.split_join hclean (List.not_mem_nil (a := flag))
  rw [List.append_nil, Lines.join_append, Lines.join_append, join_gapsOf, join_gapsOf,
    join_replicate] at hsplit
  have hread := map_fst_readAll_split h
  rw [hread, hsplit, delimited_gapsOf hfront]
  refine ⟨congrArg (front.map returned ++ ·) ?_, decode_emptyFrame⟩
  have hmod := Nat.div_add_mod k 2
  split_ifs with heven
  · have hk : k = 2 * (k / 2) := by omega
    have hframes : delimited [] false (gapsOf back ++ []) =
        back.map returned ++ delimited [] false [] := delimited_gapsOf hback []
    rw [List.append_nil] at hframes
    rw [hk, delimited_replicate, hframes, ← hk]
    rfl
  · -- The flag left over opens a frame that the next frame's opening flag closes.
    have hk : k = 2 * (k / 2) + 1 := by omega
    have hgaps : List.replicate k ([] : Bytes) = List.replicate (2 * (k / 2)) [] ++ [[]] := by
      rw [← List.replicate_succ', ← hk]
    rw [hgaps, List.append_assoc, delimited_replicate, List.singleton_append, delimited,
      delimited_gapsOf_shifted]

/-- A frame, a stray flag and two frames, the bytes of which come between suspensions. -/
theorem stray_flags_sample :
    (AsyncFrameReader.new.readAll (.pending ::
      ((encode [1] ++ flag :: (encode [2] ++ encode [3])).map .byte ++ [.eof]))).map Prod.fst =
      [returned [1], .ok (some emptyFrame), .ok (some emptyFrame), .error eofInFrame] := by
  have hfits : ∀ payload ∈ [[1]] ++ [[2], [3]], (encode payload).length ≤ maxFrameSize := by decide
  have hschedules : Schedules
      (.pending :: ((encode [1] ++ flag :: (encode [2] ++ encode [3])).map .byte ++ [.eof]))
      ([[1]].flatMap encode ++ (List.replicate 1 flag ++ [[2], [3]].flatMap encode)) := by
    unfold Schedules
    decide
  exact (stray_flags hfits 1 hschedules).1

end Axsh.Hdlc
