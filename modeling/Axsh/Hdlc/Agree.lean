/-
# The frame readers agree

A caller that polls a frame reader until it is ready sees what a caller of `read_frame`
sees on the same bytes, wherever the stream suspends the reader: the same frames, and
the same error or end after them, with the same bytes left of the stream after each.
A suspension changes nothing in the reader (`pollUntilReady_pending`), and a reader that
has returned a frame is as good as a new one, so it makes no difference whether one
reader is kept for all frames or each frame gets its own, as in `read_frame_async`.
-/

import Axsh.Framing

set_option autoImplicit false

namespace Axsh.Hdlc

namespace AsyncFrameReader

/-- A poll that is suspended has consumed an answer, or all there were. -/
theorem length_rest_lt_of_pending {self next : AsyncFrameReader} {answers rest : List ReadResult}
    (h : self.pollReadFrame answers = (next, rest, .pending)) (hrest : rest ≠ []) :
    rest.length < answers.length := by
  induction answers generalizing self with
  | nil =>
    rw [pollReadFrame] at h
    exact absurd (Prod.mk.inj (Prod.mk.inj h).2).1.symm hrest
  | cons answer answers ih =>
    rw [pollReadFrame] at h
    split at h
    · obtain ⟨-, hpair⟩ := Prod.mk.inj h
      rw [← (Prod.mk.inj hpair).1, List.length_cons]
      exact Nat.lt_succ_self _
    · exact (ih h).trans (Nat.lt_succ_self _)

/-- Poll until the reader is ready. The last component is what it returned, or nothing
if it still waits for the stream. -/
def pollUntilReady (self : AsyncFrameReader) (answers : List ReadResult) :
    AsyncFrameReader × List ReadResult × Option (Res (Option Bytes)) :=
  match _h : self.pollReadFrame answers with
  | (next, rest, .ready result) => (next, rest, some result)
  | (next, rest, .pending) =>
    if _hrest : rest = [] then (next, [], none) else next.pollUntilReady rest
termination_by answers.length
decreasing_by exact length_rest_lt_of_pending _h _hrest

theorem pollUntilReady_of_ready {self next : AsyncFrameReader} {answers rest : List ReadResult}
    {result : Res (Option Bytes)} (h : self.pollReadFrame answers = (next, rest, .ready result)) :
    self.pollUntilReady answers = (next, rest, some result) := by
  rw [pollUntilReady]
  split <;> simp_all

theorem pollUntilReady_of_pending {self next : AsyncFrameReader} {answers rest : List ReadResult}
    (h : self.pollReadFrame answers = (next, rest, .pending)) :
    self.pollUntilReady answers = next.pollUntilReady rest := by
  rw [pollUntilReady]
  split
  · simp_all
  · next next' rest' hpoll =>
    obtain ⟨rfl, hpair⟩ := Prod.mk.inj (h.symm.trans hpoll)
    obtain rfl := (Prod.mk.inj hpair).1
    split_ifs with hrest
    · -- With nothing left of the answers a further poll is suspended at once.
      subst hrest
      rw [pollUntilReady]
      rfl
    · rfl

/-- A suspension leaves the reader where it is. -/
theorem pollUntilReady_pending (self : AsyncFrameReader) (rest : List ReadResult) :
    self.pollUntilReady (.pending :: rest) = self.pollUntilReady rest :=
  pollUntilReady_of_pending rfl

/-- An answer after which the reader goes on. -/
theorem pollUntilReady_cons {self next : AsyncFrameReader} {answer : ReadResult}
    (h : self.readOne answer = (next, none)) (rest : List ReadResult) :
    self.pollUntilReady (answer :: rest) = next.pollUntilReady rest := by
  have hpoll : self.pollReadFrame (answer :: rest) = next.pollReadFrame rest := by
    rw [pollReadFrame, h]
  rcases hrest : next.pollReadFrame rest with ⟨stopped, left, result⟩
  cases result with
  | pending =>
    rw [pollUntilReady_of_pending (hpoll.trans hrest), pollUntilReady_of_pending hrest]
  | ready result => rw [pollUntilReady_of_ready (hpoll.trans hrest), pollUntilReady_of_ready hrest]

/-- An answer at which the reader is ready. -/
theorem pollUntilReady_of_readOne {self next : AsyncFrameReader} {answer : ReadResult}
    {result : Res (Option Bytes)} (h : self.readOne answer = (next, some (.ready result)))
    (rest : List ReadResult) :
    self.pollUntilReady (answer :: rest) = (next, rest, some result) := by
  apply pollUntilReady_of_ready
  rw [pollReadFrame, h]

end AsyncFrameReader

/-! ## One call -/

/-- The answers of a stream, but for the suspensions. -/
def unsuspended (answers : List ReadResult) : List ReadResult := answers.filter (· ≠ .pending)

/-- The answers are those of a stream of these bytes, which then ends. -/
def Schedules (answers : List ReadResult) (bytes : Bytes) : Prop :=
  unsuspended answers = bytes.map .byte ++ [.eof]

/-- The byte that an answer brings. -/
def ReadResult.byte? : ReadResult → Option UInt8
  | .byte value => some value
  | _ => none

/-- The bytes among some answers. -/
def bytesOf (answers : List ReadResult) : Bytes := answers.filterMap ReadResult.byte?

theorem bytesOf_unsuspended (answers : List ReadResult) :
    bytesOf (unsuspended answers) = bytesOf answers := by
  induction answers with
  | nil => rfl
  | cons answer answers ih =>
    cases answer with
    | byte byte => exact congrArg (byte :: ·) ih
    | pending | error _ _ | eof => exact ih

theorem Schedules.bytesOf_eq {answers : List ReadResult} {bytes : Bytes}
    (h : Schedules answers bytes) : bytesOf answers = bytes := by
  have hbytes (bytes : Bytes) : bytesOf (bytes.map .byte ++ [.eof]) = bytes := by
    induction bytes with
    | nil => rfl
    | cons byte bytes ih => exact congrArg (byte :: ·) ih
  rw [← bytesOf_unsuspended, h, hbytes]

/-- The first answer of a stream that is not a suspension is its first byte, or its end. -/
theorem Schedules.cons {answers : List ReadResult} {answer : ReadResult} {bytes : Bytes}
    (h : Schedules (answer :: answers) bytes) :
    answer = .pending ∧ Schedules answers bytes ∨
    (answer = .eof ∧ bytes = [] ∧ bytesOf answers = []) ∨
    ∃ byte more, answer = .byte byte ∧ bytes = byte :: more ∧ Schedules answers more := by
  by_cases hpending : answer = .pending
  · subst hpending
    exact .inl ⟨rfl, h⟩
  · have hhead : answer :: unsuspended answers = bytes.map .byte ++ [.eof] := by
      rw [← show unsuspended (answer :: answers) = _ from h]
      simp [unsuspended, hpending]
    cases bytes with
    | nil =>
      obtain ⟨rfl, hrest⟩ := List.cons.inj hhead
      refine .inr (.inl ⟨rfl, rfl, ?_⟩)
      rw [← bytesOf_unsuspended, hrest]
      rfl
    | cons byte more =>
      obtain ⟨rfl, hrest⟩ := List.cons.inj hhead
      exact .inr (.inr ⟨byte, more, rfl, rfl, hrest⟩)

open AsyncFrameReader in
/-- From one state, over one stream, the reader that is polled until it is ready and the
loop of `read_frame` return the same and leave the same. With a frame the reader has
nothing left of it, and the rest of the answers are those of the rest of the bytes. -/
theorem pollUntilReady_eq {answers : List ReadResult} {bytes : Bytes} (h : Schedules answers bytes)
    (self : AsyncFrameReader) :
    ∃ next rest left result, self.pollUntilReady answers = (next, rest, some result) ∧
      readFrameLoop self.frame self.inFrame (streamOf bytes) = (streamOf left, result) ∧
      bytesOf rest = left ∧
      ∀ frame, result = .ok (some frame) → next = .new ∧ Schedules rest left := by
  induction answers generalizing self bytes with
  | nil =>
    -- A stream without answers has not ended.
    have hlen := congrArg List.length h
    simp [unsuspended] at hlen
  | cons answer answers ih =>
    rcases h.cons with ⟨rfl, hrest⟩ | ⟨rfl, rfl, hleft⟩ | ⟨byte, more, rfl, rfl, hmore⟩
    · rw [pollUntilReady_pending]
      exact ih hrest self
    · obtain ⟨frame, inFrame⟩ := self
      refine ⟨⟨frame, inFrame⟩, answers, [], readEnd inFrame, ?_, rfl, hleft, ?_⟩
      · apply pollUntilReady_of_readOne
        cases inFrame <;> rfl
      · cases inFrame <;> (intro _ hresult; cases hresult)
    · obtain ⟨frame, inFrame⟩ := self
      -- Both go on in the same state, or return the same, by the same branches.
      cases inFrame with
      | true =>
        cases hpush : pushFrameByte frame byte with
        | error e =>
          have hone : (⟨frame, true⟩ : AsyncFrameReader).readOne (.byte byte) =
              (⟨frame, true⟩, some (.ready (.error e))) := by
            simp only [readOne, if_true, hpush]
          refine ⟨_, _, more, _, pollUntilReady_of_readOne hone answers, ?_, hmore.bytesOf_eq, ?_⟩
          · simp only [streamOf, List.map_cons, readFrameLoop, if_true, hpush]
          · intro _ hresult
            cases hresult
        | ok pushed =>
          by_cases hflag : byte = flag
          · have hone : (⟨frame, true⟩ : AsyncFrameReader).readOne (.byte byte) =
                (.new, some (.ready (.ok (some pushed)))) := by
              simp only [readOne, if_true, hpush, if_pos hflag]
              rfl
            refine ⟨_, _, more, _, pollUntilReady_of_readOne hone answers, ?_, hmore.bytesOf_eq,
              fun _ _ => ⟨rfl, hmore⟩⟩
            simp only [streamOf, List.map_cons, readFrameLoop, if_true, hpush, if_pos hflag]
          · have hone : (⟨frame, true⟩ : AsyncFrameReader).readOne (.byte byte) =
                (⟨pushed, true⟩, none) := by
              simp only [readOne, if_true, hpush, if_neg hflag]
            rw [pollUntilReady_cons hone]
            simpa only [streamOf, List.map_cons, readFrameLoop, if_true, hpush, if_neg hflag] using
              ih hmore ⟨pushed, true⟩
      | false =>
        by_cases hflag : byte = flag
        · have hone : (⟨frame, false⟩ : AsyncFrameReader).readOne (.byte byte) =
              (⟨[byte], true⟩, none) := by
            simp only [readOne, Bool.false_eq_true, if_false, if_pos hflag]
          rw [pollUntilReady_cons hone]
          simpa only [streamOf, List.map_cons, readFrameLoop, Bool.false_eq_true, if_false,
            if_pos hflag] using ih hmore ⟨[byte], true⟩
        · have hone : (⟨frame, false⟩ : AsyncFrameReader).readOne (.byte byte) =
              (⟨frame, false⟩, none) := by
            simp only [readOne, Bool.false_eq_true, if_false, if_neg hflag]
          rw [pollUntilReady_cons hone]
          simpa only [streamOf, List.map_cons, readFrameLoop, Bool.false_eq_true, if_false,
            if_neg hflag] using ih hmore ⟨frame, false⟩

/-- Inside a frame, the loop of `read_frame` consumes what is missing of the frame. -/
theorem readFrameLoop_consumes_inside {seen bytes frame : Bytes} {rest : List BlockingRead}
    (h : readFrameLoop seen true (streamOf bytes) = (rest, .ok (some frame))) :
    ∃ interior left, flag ∉ interior ∧ frame = seen ++ (interior ++ [flag]) ∧
      bytes = interior ++ flag :: left ∧ rest = streamOf left := by
  induction bytes generalizing seen with
  | nil => cases h
  | cons byte bytes ih =>
    simp only [streamOf, List.map_cons, readFrameLoop, if_true] at h
    by_cases hfull : maxFrameSize ≤ seen.length
    · have hpush : pushFrameByte seen byte = .error frameTooLarge := if_pos hfull
      rw [hpush] at h
      cases h
    · have hpush : pushFrameByte seen byte = .ok (seen ++ [byte]) := if_neg hfull
      rw [hpush] at h
      simp only at h
      split_ifs at h with hflag
      · obtain ⟨rfl, hframe⟩ := Prod.mk.inj h
        obtain rfl := Option.some.inj (Except.ok.inj hframe)
        exact ⟨[], bytes, List.not_mem_nil, by rw [hflag]; rfl, by rw [hflag]; rfl, rfl⟩
      · obtain ⟨interior, left, hinterior, hframe, hbytes, hrest⟩ := ih h
        refine ⟨byte :: interior, left, ?_, ?_, ?_, hrest⟩
        · rw [List.mem_cons, not_or]
          exact ⟨Ne.symm hflag, hinterior⟩
        · rw [hframe, List.append_assoc]
          rfl
        · rw [hbytes, List.cons_append]

/-- What `read_frame` consumes for a frame: junk without a flag, which it skips, and the
bytes from the opening flag through the closing one. -/
theorem readFrame_consumes {bytes frame : Bytes} {rest : List BlockingRead}
    (h : readFrame (streamOf bytes) = (rest, .ok (some frame))) :
    ∃ junk interior left, flag ∉ junk ∧ flag ∉ interior ∧ frame = flag :: (interior ++ [flag]) ∧
      bytes = junk ++ (frame ++ left) ∧ rest = streamOf left := by
  induction bytes with
  | nil => cases h
  | cons byte bytes ih =>
    by_cases hflag : byte = flag
    · -- The opening flag.
      have hloop : readFrameLoop [flag] true (streamOf bytes) = (rest, .ok (some frame)) := by
        rw [← h, hflag]
        rfl
      obtain ⟨interior, left, hinterior, rfl, rfl, hrest⟩ := readFrameLoop_consumes_inside hloop
      refine ⟨[], interior, left, List.not_mem_nil, hinterior, rfl, ?_, hrest⟩
      rw [hflag]
      simp
    · have hjunk : flag ∉ [byte] := by simpa using Ne.symm hflag
      have hskip := readFrame_skip hjunk (streamOf bytes)
      obtain ⟨junk, interior, left, hjunk, hinterior, hframe, hbytes, hrest⟩ :=
        ih (hskip.symm.trans h)
      refine ⟨byte :: junk, interior, left, ?_, hinterior, hframe, ?_, hrest⟩
      · rw [List.mem_cons, not_or]
        exact ⟨Ne.symm hflag, hjunk⟩
      · rw [hbytes, List.cons_append]

/-- The end of a stream is no frame. -/
theorem readEnd_ne (inFrame : Bool) (frame : Bytes) : readEnd inFrame ≠ .ok (some frame) := by
  cases inFrame <;> (intro h; cases h)

/-- A call that returns a frame has consumed something. -/
theorem length_lt_of_readFrameLoop {stream rest : List BlockingRead} {seen frame : Bytes}
    {inFrame : Bool} (h : readFrameLoop seen inFrame stream = (rest, .ok (some frame))) :
    rest.length < stream.length := by
  induction stream generalizing seen inFrame with
  | nil => exact absurd (Prod.mk.inj h).2 (readEnd_ne _ _)
  | cons answer stream ih =>
    rw [List.length_cons]
    cases answer with
    | error kind message => cases h
    | eof => exact absurd (Prod.mk.inj h).2 (readEnd_ne _ _)
    | byte byte =>
      -- The byte ends the frame, or the loop goes on behind it.
      cases inFrame with
      | true =>
        cases hpush : pushFrameByte seen byte with
        | error e =>
          simp only [readFrameLoop, if_true, hpush] at h
          cases h
        | ok pushed =>
          simp only [readFrameLoop, if_true, hpush] at h
          split_ifs at h
          · rw [← (Prod.mk.inj h).1]
            exact Nat.lt_succ_self _
          · exact Nat.lt_succ_of_lt (ih h)
      | false =>
        simp only [readFrameLoop, Bool.false_eq_true, if_false] at h
        split_ifs at h
        · exact Nat.lt_succ_of_lt (ih h)
        · exact Nat.lt_succ_of_lt (ih h)

/-! ## Calls in turn -/

/-- Call `read_frame` until a call returns no frame: the result of each call, and what it
leaves of the stream. -/
def readAll (stream : List BlockingRead) : List (Res (Option Bytes) × List BlockingRead) :=
  match _h : readFrame stream with
  | (rest, .ok (some frame)) => (.ok (some frame), rest) :: readAll rest
  | (rest, result) => [(result, rest)]
termination_by stream.length
decreasing_by exact length_lt_of_readFrameLoop _h

namespace AsyncFrameReader

/-- A reader that becomes ready has consumed an answer. -/
theorem length_lt_of_pollUntilReady {self next : AsyncFrameReader} {answers rest : List ReadResult}
    {result : Res (Option Bytes)} (h : self.pollUntilReady answers = (next, rest, some result)) :
    rest.length < answers.length := by
  fun_induction pollUntilReady self answers with
  | case1 self answers next' rest' result' hpoll =>
    obtain ⟨-, hpair⟩ := Prod.mk.inj h
    rw [← (Prod.mk.inj hpair).1]
    exact length_rest_lt hpoll
  | case2 self answers next' hpoll => cases h
  | case3 self answers next' rest' hpoll hrest ih =>
    exact (ih h).trans (length_rest_lt_of_pending hpoll hrest)

/-- Poll one reader until it is ready, again and again until it returns no frame. -/
def readAll (self : AsyncFrameReader) (answers : List ReadResult) :
    List (Res (Option Bytes) × List ReadResult) :=
  match _h : self.pollUntilReady answers with
  | (next, rest, some (.ok (some frame))) => (.ok (some frame), rest) :: next.readAll rest
  | (_, rest, some result) => [(result, rest)]
  | (_, _, none) => []
termination_by answers.length
decreasing_by exact length_lt_of_pollUntilReady _h

end AsyncFrameReader

/-- Read a single HDLC frame from an async byte stream, with a reader of its own. -/
def readFrameAsync (answers : List ReadResult) : List ReadResult × Option (Res Bytes) :=
  let out := AsyncFrameReader.new.pollUntilReady answers
  (out.2.1, out.2.2.map frameOrEof)

theorem length_lt_of_readFrameAsync {answers rest : List ReadResult} {result : Res Bytes}
    (h : readFrameAsync answers = (rest, some result)) : rest.length < answers.length := by
  obtain ⟨rfl, hresult⟩ := Prod.mk.inj h
  obtain ⟨result', hready, -⟩ := Option.map_eq_some_iff.mp hresult
  rcases hout : AsyncFrameReader.new.pollUntilReady answers with ⟨next, rest, ready⟩
  rw [hout] at hready
  exact AsyncFrameReader.length_lt_of_pollUntilReady (hout.trans (by rw [← hready]))

/-- Call `read_frame_async` until a call returns no frame. -/
def readAllAsync (answers : List ReadResult) : List (Res Bytes × List ReadResult) :=
  match _h : readFrameAsync answers with
  | (rest, some (.ok frame)) => (.ok frame, rest) :: readAllAsync rest
  | (rest, some (.error e)) => [(.error e, rest)]
  | (_, none) => []
termination_by answers.length
decreasing_by exact length_lt_of_readFrameAsync _h

/-- The bytes that are left of a blocking stream. -/
def bytesLeft (stream : List BlockingRead) : Bytes := bytesOf (stream.map BlockingRead.polled)

/-- Between two calls that return frames nothing is consumed but junk without a flag, and
each frame ends where its call has stopped reading. -/
def Consumes : Bytes → List (Res (Option Bytes) × Bytes) → Prop
  | bytes, (.ok (some frame), left) :: calls =>
    (∃ junk interior, flag ∉ junk ∧ flag ∉ interior ∧ frame = flag :: (interior ++ [flag]) ∧
      bytes = junk ++ (frame ++ left)) ∧ Consumes left calls
  | _, _ => True

theorem bytesLeft_streamOf (bytes : Bytes) : bytesLeft (streamOf bytes) = bytes := by
  rw [bytesLeft, map_polled_streamOf]
  induction bytes with
  | nil => rfl
  | cons byte bytes ih => exact congrArg (byte :: ·) ih

section Calls

variable {stream rest : List BlockingRead} {self next : AsyncFrameReader}
  {answers left : List ReadResult} {frame : Bytes} {result : Res (Option Bytes)}

theorem readAll_frame (h : readFrame stream = (rest, .ok (some frame))) :
    readAll stream = (.ok (some frame), rest) :: readAll rest := by
  rw [readAll]
  split
  · next hread =>
    obtain ⟨rfl, hresult⟩ := Prod.mk.inj (h.symm.trans hread)
    obtain rfl := Option.some.inj (Except.ok.inj hresult)
    rfl
  · next hother hread => exact (hother frame (Prod.mk.inj (h.symm.trans hread)).2.symm).elim

theorem readAll_last (h : readFrame stream = (rest, result))
    (hlast : ∀ frame, result ≠ .ok (some frame)) : readAll stream = [(result, rest)] := by
  rw [readAll]
  split
  · next hread => exact absurd (Prod.mk.inj (h.symm.trans hread)).2 (hlast _)
  · next hread =>
    obtain ⟨rfl, rfl⟩ := Prod.mk.inj (h.symm.trans hread)
    rfl

theorem AsyncFrameReader.readAll_frame
    (h : self.pollUntilReady answers = (next, left, some (.ok (some frame)))) :
    self.readAll answers = (.ok (some frame), left) :: next.readAll left := by
  rw [AsyncFrameReader.readAll]
  split
  · next hready =>
    obtain ⟨rfl, hpair⟩ := Prod.mk.inj (h.symm.trans hready)
    obtain ⟨rfl, hresult⟩ := Prod.mk.inj hpair
    obtain rfl := Option.some.inj (Except.ok.inj (Option.some.inj hresult))
    rfl
  · next hother hready =>
    have hpair := (Prod.mk.inj (h.symm.trans hready)).2
    exact (hother frame (Option.some.inj (Prod.mk.inj hpair).2).symm).elim
  · next hready => cases h.symm.trans hready

theorem AsyncFrameReader.readAll_last
    (h : self.pollUntilReady answers = (next, left, some result))
    (hlast : ∀ frame, result ≠ .ok (some frame)) : self.readAll answers = [(result, left)] := by
  rw [AsyncFrameReader.readAll]
  split
  · next hready =>
    have hpair := (Prod.mk.inj (h.symm.trans hready)).2
    exact absurd (Option.some.inj (Prod.mk.inj hpair).2) (hlast _)
  · next hready =>
    obtain ⟨rfl, hpair⟩ := Prod.mk.inj (h.symm.trans hready)
    obtain ⟨rfl, hresult⟩ := Prod.mk.inj hpair
    rw [Option.some.inj hresult]
  · next hready => cases h.symm.trans hready

theorem readAllAsync_frame
    (h : AsyncFrameReader.new.pollUntilReady answers = (next, left, some (.ok (some frame)))) :
    readAllAsync answers = (.ok frame, left) :: readAllAsync left := by
  have hread : readFrameAsync answers = (left, some (.ok frame)) := by
    rw [readFrameAsync, h]
    rfl
  rw [readAllAsync]
  split
  · next hagain =>
    obtain ⟨rfl, hresult⟩ := Prod.mk.inj (hread.symm.trans hagain)
    obtain rfl := Except.ok.inj (Option.some.inj hresult)
    rfl
  · next hagain => cases hread.symm.trans hagain
  · next hagain => cases hread.symm.trans hagain

theorem readAllAsync_last
    (h : AsyncFrameReader.new.pollUntilReady answers = (next, left, some result))
    (hlast : ∀ frame, result ≠ .ok (some frame)) :
    readAllAsync answers = [(frameOrEof result, left)] := by
  obtain ⟨e, he⟩ : ∃ e, frameOrEof result = .error e := by
    cases result with
    | error e => exact ⟨e, rfl⟩
    | ok frame? =>
      cases frame? with
      | none => exact ⟨_, rfl⟩
      | some frame => exact absurd rfl (hlast frame)
  have hread : readFrameAsync answers = (left, some (.error e)) := by
    rw [readFrameAsync, h, ← he]
    rfl
  rw [readAllAsync, he]
  split
  · next hagain => cases hread.symm.trans hagain
  · next hagain =>
    obtain ⟨rfl, hresult⟩ := Prod.mk.inj (hread.symm.trans hagain)
    rw [Except.error.inj (Option.some.inj hresult)]
  · next hagain => cases hread.symm.trans hagain

end Calls

/-- Over any stream of bytes that ends, suspended in any way, one polled reader returns
what `read_frame` returns and leaves the same bytes after each call, up to and including
the first error or the end; so do readers that are new for each frame, for which the end
is an error. Every frame is consumed through its closing flag and no further. -/
theorem readers_agree {answers : List ReadResult} {bytes : Bytes} (h : Schedules answers bytes) :
    (AsyncFrameReader.new.readAll answers).map (Prod.map id bytesOf) =
        (readAll (streamOf bytes)).map (Prod.map id bytesLeft) ∧
      (readAllAsync answers).map (Prod.map id bytesOf) =
        (readAll (streamOf bytes)).map (Prod.map frameOrEof bytesLeft) ∧
      Consumes bytes ((readAll (streamOf bytes)).map (Prod.map id bytesLeft)) := by
  -- The induction is on the bytes: a frame leaves fewer of them, to a reader that is new again.
  induction hlength : bytes.length using Nat.strong_induction_on generalizing answers bytes with
  | h n ih =>
    obtain ⟨next, rest, left, result, hpolled, hread, hrest, hframe⟩ := pollUntilReady_eq h .new
    have hleft : bytesLeft (streamOf left) = left := bytesLeft_streamOf left
    by_cases hlast : ∀ frame, result ≠ .ok (some frame)
    · rw [AsyncFrameReader.readAll_last hpolled hlast, readAllAsync_last hpolled hlast,
        readAll_last hread hlast]
      refine ⟨?_, ?_, ?_⟩
      · simp [hrest, hleft]
      · simp [hrest, hleft]
      · cases result with
        | error e => trivial
        | ok frame? =>
          cases frame? with
          | none => trivial
          | some frame => exact absurd rfl (hlast frame)
    · push Not at hlast
      obtain ⟨frame, rfl⟩ := hlast
      obtain ⟨rfl, hmore⟩ := hframe frame rfl
      have hlt : left.length < n := by
        have := length_lt_of_readFrameLoop hread
        rwa [streamOf, streamOf, List.length_map, List.length_map, hlength] at this
      obtain ⟨hone, hfresh, hconsumes⟩ := ih left.length hlt hmore rfl
      rw [AsyncFrameReader.readAll_frame hpolled, readAllAsync_frame hpolled, readAll_frame hread]
      refine ⟨?_, ?_, ?_⟩
      · rw [List.map_cons, List.map_cons, hone, Prod.map_apply, Prod.map_apply, hrest, hleft]
      · rw [List.map_cons, List.map_cons, hfresh, Prod.map_apply, Prod.map_apply, hrest, hleft]
        rfl
      · obtain ⟨junk, interior, left', hjunk, hinterior, hflags, hbytes, hstream⟩ :=
          readFrame_consumes hread
        have hsame : left = left' := by rw [← hleft, hstream, bytesLeft_streamOf]
        rw [List.map_cons, Prod.map_apply, hleft]
        exact ⟨⟨junk, interior, hjunk, hinterior, hflags, hsame ▸ hbytes⟩, hconsumes⟩

/-- A frame whose bytes come one by one between suspensions, and the end behind it. -/
theorem readers_agree_sample :
    (AsyncFrameReader.new.readAll [.pending, .byte flag, .byte 1, .pending, .byte flag, .eof]).map
        (Prod.map id bytesOf) =
      (readAll (streamOf [flag, 1, flag])).map (Prod.map id bytesLeft) := by
  have hschedules : Schedules [.pending, .byte flag, .byte 1, .pending, .byte flag, .eof]
    [flag, 1, flag] := rfl
  exact (readers_agree hschedules).1

end Axsh.Hdlc
