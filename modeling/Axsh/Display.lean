/-
# What the client prints

The main loop of `axsh` decodes what each read returned by itself and prints that. A read
takes at most 1024 bytes and never goes beyond the packet it is in, so the text is made from
the pieces of 1024 bytes that the packets are cut into (`Shows`). It is the decoding of the
bytes as a whole exactly if no UTF-8 sequence lies across the end of a piece.
-/

import Axsh.Commands
import Axsh.Text.Lossy
import Axsh.Transport.Genuine

set_option autoImplicit false

namespace Axsh

open PayloadStream
open Hdlc (AsyncFrameReader ReadResult)

/-! ## Pieces -/

/-- The pieces that reads into a buffer of the given size take of some bytes. -/
def pieces (size : ℕ) (data : Bytes) : List Bytes :=
  if data = [] ∨ size = 0 then [] else data.take size :: pieces size (data.drop size)
termination_by data.length
decreasing_by
  have : data.length ≠ 0 := by simp_all
  simp_all only [List.length_drop, not_or]
  omega

@[simp] theorem pieces_nil (size : ℕ) : pieces size [] = [] := by rw [pieces, if_pos (.inl rfl)]

theorem pieces_eq {size : ℕ} {data : Bytes} (hdata : data ≠ []) (hsize : size ≠ 0) :
    pieces size data = data.take size :: pieces size (data.drop size) := by
  rw [pieces, if_neg (not_or.mpr ⟨hdata, hsize⟩)]

/-- The pieces are the bytes. -/
theorem flatten_pieces {size : ℕ} (hsize : size ≠ 0) (data : Bytes) :
    (pieces size data).flatten = data := by
  fun_induction pieces size data with
  | case1 data h =>
    obtain rfl := h.resolve_right hsize
    rfl
  | case2 data _ ih => rw [List.flatten_cons, ih, List.take_append_drop]

/-- So are the pieces of many packets. -/
theorem flatten_flatMap_pieces {size : ℕ} (hsize : size ≠ 0) (packets : List Bytes) :
    (packets.flatMap (pieces size)).flatten = packets.flatten := by
  induction packets with
  | nil => rfl
  | cons data packets ih =>
    rw [List.flatMap_cons, List.flatten_append, flatten_pieces hsize, ih, List.flatten_cons]

/-! ## One read -/

namespace PayloadStream

variable {C : Crypto}

/-- A fill verifies at most one payload that has bytes, and it is the last. -/
theorem flatMap_fillVerified {α : Type} {f : Bytes → List α} (hf : f [] = []) (V : Verifier)
    (clock : ℕ → Instant) (self : PayloadStream C) (answers : List ReadResult) :
    (self.fillVerified V clock answers).flatMap f =
      f (self.fillVerified V clock answers).flatten := by
  have hone : ∀ data : Option Bytes, data.toList.flatMap f = f data.toList.flatten := by
    intro data
    cases data with
    | none => exact hf.symm
    | some data => simp
  fun_induction fillVerified V clock self answers with
  | case1 clock self answers frameReader rest frame hread verified stream result hframe =>
    exact hone verified
  | case2 clock self answers frameReader rest frame hread verified stream hframe ih =>
    -- The loop goes on here, so the frame was a keepalive.
    have hverified : verified = some [] := (verifiedIn_of_none hframe).1
    rw [hverified, Option.toList_some, List.flatMap_append, List.flatten_append, ih]
    simp [hf]
  | case3 => exact hf.symm

/-- What was unread and what a read verifies are cut into pieces together. -/
theorem pieces_read {self : PayloadStream C} (hbounded : self.readOffset ≤ self.readBuffer.length)
    (call : ReadCall) (hremaining : call.remaining ≠ 0) (size : ℕ) :
    pieces size self.unread ++ (self.readVerified call).flatMap (pieces size) =
      pieces size (self.unread ++ (self.readVerified call).flatten) := by
  by_cases hunread : self.unread = []
  · have hoffset := (readOffset_eq_iff hbounded).mpr hunread
    rw [hunread, pieces_nil, List.nil_append, List.nil_append, readVerified, if_neg hremaining,
      if_pos hoffset]
    exact flatMap_fillVerified (pieces_nil size) _ _ _ _
  · have hoffset := (readOffset_eq_iff hbounded).not.mpr hunread
    rw [readVerified, if_neg hremaining, if_neg hoffset]
    simp

/-- A read delivers nothing, or as much as there is room for. -/
theorem deliveredBy_read {self : PayloadStream C}
    (hbounded : self.readOffset ≤ self.readBuffer.length) (call : ReadCall)
    (hremaining : call.remaining ≠ 0) :
    deliveredBy (self.read call).result = [] ∨
      deliveredBy (self.read call).result =
        (self.unread ++ (self.readVerified call).flatten).take call.remaining := by
  by_cases hunread : self.unread = []
  · have hoffset := (readOffset_eq_iff hbounded).mpr hunread
    have hfill := fills call.V call.clock self call.answers hunread
    have hverified : self.readVerified call = self.fillVerified call.V call.clock call.answers := by
      rw [readVerified, if_neg hremaining, if_pos hoffset]
    rw [hverified, hunread, read, pollReadPayload, if_neg hremaining, if_pos hoffset]
    cases hresult : (self.pollFillReadBuffer call.V call.clock call.answers).result
      using Poll.resultCases with
    | pending | error e =>
      simp only [hresult]
      exact .inl rfl
    | ok filled =>
      cases filled with
      | false =>
        simp only [hresult]
        exact .inl rfl
      | true =>
        obtain ⟨next, hcopy, -⟩ := copyOut_eq
          (pollFillReadBuffer_bounded call.V call.clock hbounded call.answers) call.remaining
        simp only [hresult, hcopy]
        rw [List.nil_append, ← hfill.unread]
        exact .inr rfl
  · have hoffset := (readOffset_eq_iff hbounded).not.mpr hunread
    obtain ⟨next, hcopy, -⟩ := copyOut_eq hbounded call.remaining
    rw [read, pollReadPayload_unread hremaining hbounded hunread hcopy, readVerified,
      if_neg hremaining, if_neg hoffset, List.flatten_nil, List.append_nil]
    exact .inr rfl

/-- A read takes a piece off the bytes it has, or no byte. -/
theorem pieces_deliveredBy {self : PayloadStream C}
    (hbounded : self.readOffset ≤ self.readBuffer.length) (call : ReadCall)
    (hremaining : call.remaining ≠ 0) :
    pieces call.remaining self.unread ++
        (self.readVerified call).flatMap (pieces call.remaining) =
      (if deliveredBy (self.read call).result = [] then []
        else [deliveredBy (self.read call).result]) ++
        pieces call.remaining (self.read call).stream.unread := by
  have hbytes := (reads hbounded call hremaining).bytes
  rw [pieces_read hbounded call hremaining]
  split_ifs with hnone
  · rw [hbytes, hnone, List.nil_append, List.nil_append]
  · have htake := (deliveredBy_read hbounded call hremaining).resolve_left hnone
    have hne : self.unread ++ (self.readVerified call).flatten ≠ [] := by
      intro hnil
      rw [hnil, List.take_nil] at htake
      exact hnone htake
    -- What is behind the piece is what the read leaves.
    have hdrop : (self.unread ++ (self.readVerified call).flatten).drop call.remaining =
        (self.read call).stream.unread := by
      have hcut := List.take_append_drop call.remaining
        (self.unread ++ (self.readVerified call).flatten)
      rw [← htake] at hcut
      exact List.append_cancel_left (hcut.trans hbytes)
    rw [pieces_eq hne hremaining, ← htake, hdrop, List.singleton_append]

end PayloadStream

/-! ## The main loop -/

/-- The client with its stream and its main loop, the text that it has printed, and the
payloads that were verified. -/
structure Terminal (C : Crypto) where
  stream : PayloadStream C
  client : MainLoop
  printed : Text
  verified : List Bytes

namespace Terminal

variable {C : Crypto}

/-- The loop is entered with a new stream. -/
def start (packetSign : PacketSign C) (peerPacketVerify : PacketVerify) : Terminal C where
  stream := .new packetSign peerPacketVerify
  client := .select true
  printed := []
  verified := []

/-- What is printed for a poll of the read in `select!`. -/
def printedBy : Poll (Res Bytes) → Text
  | .pending | .ready (.error _) => []
  | .ready (.ok data) => if data.isEmpty then [] else fromUtf8Lossy data

/-- A poll of the read in `select!`. -/
def afterRead (w : Terminal C) (stdinOpen : Bool) (call : ReadCall) : Terminal C where
  stream := (w.stream.read call).stream
  client := .afterRead stdinOpen (w.stream.read call).result
  printed := w.printed ++ printedBy (w.stream.read call).result
  verified := w.verified ++ w.stream.readVerified call

/-- The steps of the main loop. The underlying stream and `stdin` may answer in any way. -/
inductive Step : Terminal C → Terminal C → Prop
  | read (w : Terminal C) (stdinOpen : Bool) (hclient : w.client = .select stdinOpen)
      (call : ReadCall) (hroom : call.remaining = 1024) : Step w (w.afterRead stdinOpen call)
  | stdinLine (w : Terminal C) (line : Text) (hclient : w.client = .select true) :
      Step w { w with client := .writeAll (lineBytes line) }
  | stdinEnd (w : Terminal C) (hclient : w.client = .select true) :
      Step w { w with client := .shutdown false }
  | stdinError (w : Terminal C) (hclient : w.client = .select true) :
      Step w { w with client := .returned }
  | write (w : Terminal C) (buf : Bytes) (hclient : w.client = .writeAll buf)
      (answers : List WriteResult) :
      Step w { w with
        stream := (w.stream.send (.write buf answers)).stream
        client := .afterWrite buf (w.stream.pollWritePayload buf answers).result }
  | shutdown (w : Terminal C) (exit : Bool) (hclient : w.client = .shutdown exit)
      (answers : List WriteResult) (poll : Poll (Res Unit)) :
      Step w { w with
        stream := (w.stream.send (.shutdown answers poll)).stream
        client := .afterShutdown exit (w.stream.pollShutdownPayload answers poll).result }
  | flush (w : Terminal C) (stdinOpen exit : Bool) (hclient : w.client = .flush stdinOpen exit)
      (answers : List WriteResult) (poll : Poll (Res Unit)) :
      Step w { w with
        stream := (w.stream.send (.flush answers poll)).stream
        client := .afterFlush stdinOpen exit (w.stream.pollFlushPayload answers poll).result }

abbrev Run : Terminal C → Terminal C → Prop := Relation.ReflTransGen Step

variable {w w' : Terminal C}

/-! ## What is printed -/

/-- The text printed is made from the first pieces of the payloads, each decoded by itself,
and the other pieces are unread. -/
structure Shows (w : Terminal C) : Prop where
  bounded : w.stream.Bounded
  printed : ∃ done, w.printed = done.flatMap fromUtf8Lossy ∧
    done ++ pieces 1024 w.stream.unread = w.verified.flatMap (pieces 1024)

theorem shows_start (packetSign : PacketSign C) (peerPacketVerify : PacketVerify) :
    (start packetSign peerPacketVerify).Shows where
  bounded := bounded_new _ _
  printed := ⟨[], rfl, pieces_nil 1024⟩

/-- The text of a poll is that of the bytes it delivers. -/
theorem printedBy_eq (result : Poll (Res Bytes)) :
    printedBy result = (if deliveredBy result = [] then [] else [deliveredBy result]).flatMap
      fromUtf8Lossy := by
  cases result using Poll.resultCases with
  | pending | error e => rfl
  | ok data => cases data <;> simp [printedBy, deliveredBy]

/-- A call that sends leaves the read side as it is. -/
theorem Shows.send (h : w.Shows) (call : SendCall) (client : MainLoop) :
    Shows { w with stream := (w.stream.send call).stream, client } := by
  have hsends := (send_spec h.bounded call).1
  have hunread : (w.stream.send call).stream.unread = w.stream.unread := by
    rw [unread, unread, hsends.sameRead.readBuffer, hsends.sameRead.readOffset]
  refine ⟨hsends.bounded h.bounded, ?_⟩
  obtain ⟨done, hprinted, hdone⟩ := h.printed
  exact ⟨done, hprinted, (congrArg (done ++ pieces 1024 ·) hunread).trans hdone⟩

theorem Shows.read (h : w.Shows) (stdinOpen : Bool) {call : ReadCall}
    (hroom : call.remaining = 1024) : (w.afterRead stdinOpen call).Shows := by
  refine ⟨(read_sameWrite h.bounded call).2, ?_⟩
  obtain ⟨done, hprinted, hdone⟩ := h.printed
  have hpieces := pieces_deliveredBy h.bounded.read call (by omega)
  rw [hroom] at hpieces
  refine ⟨done ++ if deliveredBy (w.stream.read call).result = [] then []
    else [deliveredBy (w.stream.read call).result], ?_, ?_⟩
  · rw [afterRead, hprinted, printedBy_eq, ← List.flatMap_append]
  · change _ ++ pieces 1024 (w.stream.read call).stream.unread =
      (w.verified ++ w.stream.readVerified call).flatMap (pieces 1024)
    rw [List.append_assoc, ← hpieces, ← List.append_assoc, hdone, List.flatMap_append]

theorem Shows.step (h : w.Shows) (hstep : Step w w') : w'.Shows := by
  cases hstep with
  | read stdinOpen _ call hroom => exact h.read stdinOpen hroom
  | stdinLine | stdinEnd | stdinError => exact ⟨h.bounded, h.printed⟩
  | write | shutdown | flush => exact h.send _ _

theorem Shows.run (h : w.Shows) (hrun : Run w w') : w'.Shows := by
  induction hrun with
  | refl => exact h
  | tail _ hstep ih => exact ih.step hstep

/-! ## Any packets -/

/-- The loop waits in `select!` between two packets of a signer, with nothing unread. -/
structure Waits (w : Terminal C) (signer : PacketSign C) : Prop where
  client : w.client = .select true
  bounded : w.stream.Bounded
  matching : Matches signer w.stream.peerPacketVerify
  reader : w.stream.frameReader = .new
  unread : w.stream.unread = []

theorem waits_start (packetSign : PacketSign C) (keyPair : C.Ed25519KeyPair) (now : Instant) :
    (start packetSign (.new (C.ed25519PublicKey keyPair) now)).Waits (.new keyPair) where
  client := rfl
  bounded := bounded_new _ _
  matching := ⟨rfl, rfl⟩
  reader := rfl
  unread := rfl

/-- One read returns a packet that fits the buffer, and its text is printed. -/
theorem Waits.show {V : Verifier} (hV : V.Correct C) {signer : PacketSign C} (h : w.Waits signer)
    {data : Bytes} (hdata : data ≠ []) (hlen : data.length ≤ 1024) :
    ∃ w', Step w w' ∧ w'.Waits (signer.sign data).2 ∧
      w'.printed = w.printed ++ fromUtf8Lossy data ∧
      w'.verified.flatten = w.verified.flatten ++ data := by
  -- The whole frame is there, and no time has passed since the last packet.
  let clock : ℕ → Instant := fun _ => w.stream.peerPacketVerify.lastSuccess
  let call : ReadCall := ⟨V, clock, 1024, (payloadFrame signer data).map .byte⟩
  have hroom : call.remaining ≠ 0 := show 1024 ≠ 0 by decide
  have hfill : w.stream.pollFillReadBuffer V clock ((payloadFrame signer data).map .byte) =
      ⟨w.stream.received data (clock 1), [], .ready (.ok true)⟩ :=
    fill_payloadFrame (vouches_of_correct hV signer data) (fits_of_length_le signer (by omega))
      hdata h.reader h.matching ((Nat.sub_self _).le.trans (Nat.zero_le _))
  obtain ⟨next, hcopy, hnext, -, hrest⟩ :=
    copyOut_eq (received_bounded h.bounded.read data (clock 1)) 1024
  rw [unread_received h.unread, List.take_of_length_le hlen] at hcopy
  rw [unread_received h.unread, List.drop_eq_nil_iff.mpr hlen] at hrest
  have hread : w.stream.read call = ⟨next, [], .ready (.ok data)⟩ :=
    pollReadPayload_filled hroom h.bounded.read h.unread hfill hcopy
  have hverified : (w.stream.readVerified call).flatten = data := by
    have hbytes := (reads h.bounded.read call hroom).bytes
    rw [h.unread, hread] at hbytes
    exact hbytes.trans ((congrArg (data ++ ·) hrest).trans (List.append_nil data))
  have hprinted : printedBy (.ready (.ok data)) = fromUtf8Lossy data :=
    if_neg (List.isEmpty_iff.not.mpr hdata)
  refine ⟨w.afterRead true call, .read w true h.client call rfl, ?_, ?_, ?_⟩
  · have hbounded := (read_sameWrite h.bounded call).2
    rw [hread] at hbounded
    rw [afterRead, hread]
    refine ⟨if_neg (List.isEmpty_iff.not.mpr hdata), hbounded, ?_, ?_, hrest⟩
    · rw [hnext, received_peerPacketVerify]
      exact h.matching.next data (clock 1)
    · rw [hnext, received_frameReader]
      exact h.reader
  · rw [afterRead, hread, hprinted]
  · rw [afterRead, List.flatten_append, hverified]

/-- Packets that fit the buffer are printed one by one, whatever they are. -/
theorem Waits.showAll {V : Verifier} (hV : V.Correct C) {signer : PacketSign C}
    (h : w.Waits signer) (packets : List Bytes)
    (hpackets : ∀ data ∈ packets, data ≠ [] ∧ data.length ≤ 1024) :
    ∃ w', Run w w' ∧ w'.stream.unread = [] ∧
      w'.printed = w.printed ++ packets.flatMap fromUtf8Lossy ∧
      w'.verified.flatten = w.verified.flatten ++ packets.flatten := by
  induction packets generalizing w signer with
  | nil => exact ⟨w, .refl, h.unread, (List.append_nil _).symm, (List.append_nil _).symm⟩
  | cons data packets ih =>
    obtain ⟨hdata, hlen⟩ := hpackets data List.mem_cons_self
    obtain ⟨middle, hstep, hwaits, hprinted, hverified⟩ := h.show hV hdata hlen
    obtain ⟨w', hrun, hunread, hprinted', hverified'⟩ :=
      ih hwaits fun data hmem => hpackets data (List.mem_cons_of_mem _ hmem)
    refine ⟨w', .head hstep hrun, hunread, ?_, ?_⟩
    · rw [hprinted', hprinted, List.flatMap_cons, List.append_assoc]
    · rw [hverified', hverified, List.flatten_cons, List.append_assoc]

/-- When everything received has been read, the text printed is the decoding of all the bytes
exactly if no UTF-8 sequence lies across the end of a piece; and of text exactly then the
text. -/
theorem printed_eq_iff {packetSign : PacketSign C} {peerPacketVerify : PacketVerify}
    (hrun : Run (start packetSign peerPacketVerify) w) (hunread : w.stream.unread = []) :
    (w.printed = fromUtf8Lossy w.verified.flatten ↔
        utf8Chunks.Unbroken (w.verified.flatMap (pieces 1024))) ∧
      ∀ text, w.verified.flatten = utf8 text →
        (w.printed = text ↔ utf8Chunks.Unbroken (w.verified.flatMap (pieces 1024))) := by
  obtain ⟨done, hprinted, hdone⟩ := ((shows_start packetSign peerPacketVerify).run hrun).printed
  rw [hunread, pieces_nil, List.append_nil] at hdone
  have hflatten : done.flatten = w.verified.flatten := by
    rw [hdone, flatten_flatMap_pieces (by decide)]
  have hiff : w.printed = fromUtf8Lossy w.verified.flatten ↔
      utf8Chunks.Unbroken (w.verified.flatMap (pieces 1024)) := by
    rw [hprinted, ← hdone, ← hflatten]
    exact Scanner.map_tokens_eq_iff lossyChar done
  refine ⟨hiff, fun text htext => ?_⟩
  rw [← hiff, htext, fromUtf8Lossy_utf8]

/-- The loop of a sample client, whose server's packet key is that of the key pair 0. -/
def sampleStart : Terminal Crypto.sample := start (.sample 1) (.sample 0)

theorem exists_run_sampleStart (packets : List Bytes)
    (hpackets : ∀ data ∈ packets, data ≠ [] ∧ data.length ≤ 1024) :
    ∃ w, Run sampleStart w ∧ w.stream.unread = [] ∧ w.printed = packets.flatMap fromUtf8Lossy ∧
      w.verified.flatten = packets.flatten := by
  have hwaits : sampleStart.Waits (PacketSign.sample 0) := waits_start _ _ 0
  obtain ⟨w, hrun, hunread, hprinted, hverified⟩ :=
    hwaits.showAll (Verifier.correct_acceptAll _) packets hpackets
  exact ⟨w, hrun, hunread, hprinted, hverified⟩

/-- Text that comes in three packets, whose ends are ends of characters. -/
theorem printed_eq_iff_sample :
    ∃ w, Run sampleStart w ∧ w.printed = "aéb€é".toList ∧
      (w.printed = "aéb€é".toList ↔ utf8Chunks.Unbroken (w.verified.flatMap (pieces 1024))) := by
  obtain ⟨w, hrun, hunread, hprinted, hverified⟩ := exists_run_sampleStart
    [[0x61, 0xc3, 0xa9], [0x62, 0xe2, 0x82, 0xac], [0xc3, 0xa9]] (by decide)
  exact ⟨w, hrun, hprinted.trans (by decide),
    (printed_eq_iff hrun hunread).2 "aéb€é".toList (hverified.trans (by decide))⟩

/-- A character of which each byte comes in a packet of its own is printed as two. -/
theorem not_printed_eq :
    ¬ ∀ (packetSign : PacketSign Crypto.sample) (peerPacketVerify : PacketVerify)
      (w : Terminal Crypto.sample), Run (start packetSign peerPacketVerify) w →
      w.stream.unread = [] → w.printed = fromUtf8Lossy w.verified.flatten := by
  intro hall
  obtain ⟨w, hrun, hunread, hprinted, hverified⟩ :=
    exists_run_sampleStart [[0xc3], [0xa9]] (by decide)
  have hsame := hall _ _ w hrun hunread
  rw [hprinted, hverified] at hsame
  revert hsame
  decide

end Terminal

end Axsh
