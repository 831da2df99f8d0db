import IbrDtn.Net.DatagramService
import IbrDtn.Net.DiscoveryAnnouncement

/-!
# The convergence layer for LoWPAN

This file models `send_cb`, `sendAnnoucement`, `getConnection` and the receive loop of
`daemon/src/net/LOWPANConvergenceLayer.cpp`.  A frame ends with the short address of its sender.
The receiver takes the address and the frame apart and gives the frame to the connection of this
address, unless it is an announcement.

The sockets and the streams of the connections belong to the library `ibrcommon`, which is not part
of the repository: a stream takes the bytes that are queued, or throws.

## Main definitions

* `LOWPANConvergenceLayer.receiveFrame` : one round of the loop.
* `LOWPANConvergenceLayer.Handles` : a frame is used as its sender means it, and nothing but what
  was received is used of any other one.

## Main results

* `LOWPANConvergenceLayer.joinAddress_eq_iff` : which addresses are put together again.
* `LOWPANConvergenceLayer.handles_iff` : which frames are handled.
-/

namespace IbrDtn

/-- `class LOWPANConnection`: its address, and what was queued into its stream. -/
structure LOWPANConnection where
  address : UInt16
  queued : List Bytes
deriving DecidableEq, Repr

/-- `class LOWPANConvergenceLayer`: `m_maxmsgsize`, `ConnectionList`, and the announcements that
were taken out of frames, each with the address of its frame. -/
structure LOWPANConvergenceLayer where
  maxmsgsize : ℕ
  connectionList : List LOWPANConnection
  announcements : List (UInt16 × Bytes)
deriving DecidableEq, Repr

namespace LOWPANConvergenceLayer

open LOWPANDatagramService (addressBytes joinAddress)

/-- `EXTENDED_MASK`. -/
def extendedMask : UInt8 := 0x08

/-- The discovery bit in the extended header. -/
def discoveryBit : UInt8 := 0x80

/-- What a round depends on: the room for an announcement, the memory that its reader finds, and
whether the stream of the connection and `DiscoveryAgent::received`, which may send an announcement
in turn, return. -/
structure Surroundings where
  resources : Resources
  stale : Bytes
  queueing : Except Exn Unit
  answering : Except Exn Unit

/-! ### The functions -/

/-- What `send_cb` gives to the socket. -/
def sendCb (localAddr : UInt16) (buf : Bytes) : Bytes := buf ++ addressBytes localAddr

/-- What a node sends: the frame of a stream, with its header, or an announcement. -/
inductive Frame where
  | segment (buf : Bytes)
  | announcement (beacon : Bytes)
deriving DecidableEq, Repr

/-- The buffer that `send_cb` is called with. -/
def Frame.buf : Frame → Bytes
  | .segment buf => buf
  | .announcement beacon => extendedMask :: discoveryBit :: beacon

/-- What the receiver is to use of it. -/
def Frame.payload : Frame → Bytes
  | .segment buf => buf
  | .announcement beacon => beacon

/-- `getConnection`: the list, with a connection for the address. -/
def getConnection (address : UInt16) (cs : List LOWPANConnection) : List LOWPANConnection :=
  if cs.any fun c => c.address == address then cs else cs ++ [⟨address, []⟩]

/-- `queue` of the stream of the first connection with the address. -/
def queue (address : UInt16) (buf : Bytes) : List LOWPANConnection → List LOWPANConnection
  | [] => []
  | c :: cs => if c.address = address then { c with queued := c.queued ++ [buf] } :: cs
      else c :: queue address buf cs

/-- **A frame is used**: for the connection of the address, or as an announcement. -/
def use (l : LOWPANConvergenceLayer) (address : UInt16) : Frame → LOWPANConvergenceLayer
  | .segment buf => { l with
      connectionList := queue address buf (getConnection address l.connectionList) }
  | .announcement beacon => { l with announcements := l.announcements ++ [(address, beacon)] }

/-- The frame has the extended header with the discovery bit. -/
def Extended (data : Bytes) : Prop :=
  data.getD 0 0 &&& extendedMask ≠ 0 ∧ data.getD 1 0 &&& discoveryBit ≠ 0

instance (data : Bytes) : Decidable (Extended data) := inferInstanceAs (Decidable (_ ∧ _))

/-- A round of `componentRun` from the address on, with what was received. -/
def handleFrame (w : Surroundings) (l : LOWPANConvergenceLayer) (data : Bytes) :
    Except Exn LOWPANConvergenceLayer :=
  let len := data.length
  let address := joinAddress (data.getD (len - 1) 0) (data.getD (len - 2) 0)
  if Extended data then
    if len < 4 then .error (.undefined "a negative number of bytes is written")
    else
      let beacon := (data.drop 2).take (len - 4)
      match (DiscoveryAnnouncement.read w.resources .create).run ⟨beacon, false, false, w.stale⟩ with
      | (.error e, _) => .error e
      | (.ok _, _) =>
          match w.answering with
          | .error e => .error e
          | .ok _ => .ok (l.use address (.announcement beacon))
  else
    match w.queueing with
    | .error e => .error e
    | .ok _ => .ok (l.use address (.segment (data.take (len - 2))))

/-- One round of `componentRun`. -/
def receiveFrame (w : Surroundings) (l : LOWPANConvergenceLayer) (datagram : Bytes) :
    Except Exn LOWPANConvergenceLayer :=
  let data := datagram.take l.maxmsgsize
  if data.length = 0 then .ok l
  else if data.length < 2 then .error (.undefined "data[len-2] is in front of the buffer")
  else handleFrame w l data

/-! ### The condition -/

/-- Where a datagram comes from: the frame of a peer, with its address, or anything else. -/
inductive Origin where
  | peer (address : UInt16) (frame : Frame)
  | other (datagram : Bytes)

/-- The frame has a header, and fits into the buffer of the receiver with the address. -/
def Origin.Fits (l : LOWPANConvergenceLayer) : Origin → Prop
  | .peer _ frame => frame.buf ≠ [] ∧ frame.buf.length + 2 ≤ l.maxmsgsize
  | .other _ => True

/-- **What is asked of a round**: the frame of a peer is used, with its address; of anything else,
if something is used, it is part of what was received. -/
def Handles (w : Surroundings) (l : LOWPANConvergenceLayer) : Origin → Prop
  | .peer address frame => receiveFrame w l (sendCb address frame.buf) = .ok (l.use address frame)
  | .other datagram => ∃ l', receiveFrame w l datagram = .ok l' ∧
      (l' = l ∨ ∃ address frame, l' = l.use address frame ∧ frame.payload <:+: datagram)

/-- The address is put together again: the lower byte is not negative, or the higher one has all of
its bits. -/
def Joins (address : UInt16) : Prop := address.toNat % 256 < 128 ∨ 0xff00 ≤ address.toNat

instance : DecidablePred Joins := fun _ => inferInstanceAs (Decidable (_ ∨ _))

/-- The condition. A segment does not look like an announcement, and is taken by the stream; an
announcement has the format of one, and its answer is sent. What else is received is nothing, or has
room for an address, and for the header of an announcement if it looks like one. -/
def Meets (w : Surroundings) (l : LOWPANConvergenceLayer) : Origin → Prop
  | .peer address (.segment buf) =>
      Joins address ∧ ¬ Extended (sendCb address buf) ∧ w.queueing = .ok ()
  | .peer address (.announcement beacon) => Joins address ∧
      DiscoveryAnnouncement.Announces w.resources beacon w.stale ∧ w.answering = .ok ()
  | .other datagram =>
      let data := datagram.take l.maxmsgsize
      data = [] ∨ 2 ≤ data.length ∧
        if Extended data then 4 ≤ data.length ∧
          DiscoveryAnnouncement.Announces w.resources ((data.drop 2).take (data.length - 4))
            w.stale ∧ w.answering = .ok ()
        else w.queueing = .ok ()

/-! ### The address -/

/-- The address that is put together of two bytes. -/
theorem toNat_joinAddress (high low : UInt8) : (joinAddress high low).toNat =
    256 * (if low.toNat < 128 then high.toNat else 255) + low.toNat := by
  have hhigh := high.toNat_lt
  have hlow := low.toNat_lt
  have hshift : (high.toUInt16 <<< 8).toNat = 2 ^ 8 * high.toNat := by
    rw [UInt16.toNat_shiftLeft, UInt8.toNat_toUInt16]
    change high.toNat <<< 8 % 2 ^ 16 = _
    rw [Nat.shiftLeft_eq, Nat.mod_eq_of_lt (by omega), Nat.mul_comm]
  rw [joinAddress, UInt16.toNat_or, hshift]
  split_ifs with hsign
  · rw [UInt8.toNat_toUInt16, ← Nat.two_pow_add_eq_or_of_lt hlow]
  · -- The sign fills the upper byte.
    have hfill : ∀ h : Fin 256, 2 ^ 8 * h.val ||| 0xff00 = 0xff00 := by decide +kernel
    rw [UInt16.toNat_or, UInt8.toNat_toUInt16, Nat.or_comm low.toNat, ← Nat.or_assoc]
    change (2 ^ 8 * high.toNat ||| 0xff00) ||| low.toNat = _
    rw [hfill ⟨high.toNat, hhigh⟩]
    exact (Nat.two_pow_add_eq_or_of_lt (i := 8) hlow 255).symm

/-- **Half of the addresses are put together wrongly**, up to those of the last 128. -/
theorem joinAddress_eq_iff (a : UInt16) :
    joinAddress (a >>> 8).toUInt8 a.toUInt8 = a ↔ Joins a := by
  have hlt := a.toNat_lt
  have hlow : a.toUInt8.toNat = a.toNat % 256 := UInt16.toNat_toUInt8 a
  have hhigh : (a >>> 8).toUInt8.toNat = a.toNat / 256 := by
    rw [UInt16.toNat_toUInt8, UInt16.toNat_shiftRight]
    change a.toNat >>> 8 % 256 = _
    rw [Nat.shiftRight_eq_div_pow, Nat.mod_eq_of_lt (by omega)]
  rw [← UInt16.toNat_inj, toNat_joinAddress, hlow, hhigh, Joins]
  split_ifs <;> omega

/-! ### The rounds -/

section Rounds

variable {w : Surroundings} {l : LOWPANConvergenceLayer} {address : UInt16} {buf : Bytes}

/-- The bytes at the end of a frame, and those in front of them. -/
theorem handleFrame_sendCb : handleFrame w l (sendCb address buf) =
    if Extended (sendCb address buf) then
      if buf.length < 2 then .error (.undefined "a negative number of bytes is written")
      else
        match (DiscoveryAnnouncement.read w.resources .create).run
          ⟨(buf.drop 2), false, false, w.stale⟩ with
        | (.error e, _) => .error e
        | (.ok _, _) =>
            match w.answering with
            | .error e => .error e
            | .ok _ => .ok (l.use (joinAddress (address >>> 8).toUInt8 address.toUInt8)
                (.announcement (buf.drop 2)))
    else
      match w.queueing with
      | .error e => .error e
      | .ok _ => .ok (l.use (joinAddress (address >>> 8).toUInt8 address.toUInt8)
          (.segment buf)) := by
  have hlen : (sendCb address buf).length = buf.length + 2 := by simp [sendCb, addressBytes]
  have hhigh : (sendCb address buf).getD (buf.length + 1) 0 = (address >>> 8).toUInt8 := by
    simp [sendCb, addressBytes]
  have hlow : (sendCb address buf).getD buf.length 0 = address.toUInt8 := by
    simp [sendCb, addressBytes]
  have hbuf : (sendCb address buf).take buf.length = buf := by simp [sendCb]
  rw [handleFrame]
  simp only [hlen, Nat.add_sub_cancel, show buf.length + 2 - 1 = buf.length + 1 from rfl, hhigh,
    hlow, hbuf]
  split_ifs with hextended hshort hshort' hshort'
  · rfl
  · omega
  · omega
  · have hbeacon : ((sendCb address buf).drop 2).take (buf.length + 2 - 4) = buf.drop 2 := by
      rw [sendCb, List.drop_append_of_le_length (by omega),
        List.take_append_of_le_length (by simp), List.take_of_length_le (by simp)]
    rw [hbeacon]
  · rfl

end Rounds

/-! ### The connections -/

section Connections

variable {a b : UInt16} {buf : Bytes} {cs : List LOWPANConnection}

/-- What was queued for an address. -/
def queuedFor (address : UInt16) : List LOWPANConnection → List Bytes
  | [] => []
  | c :: cs => if c.address = address then c.queued else queuedFor address cs

/-- A new connection has nothing in its queue. -/
theorem queuedFor_getConnection : queuedFor b (getConnection a cs) = queuedFor b cs := by
  have hnew : queuedFor b (cs ++ [⟨a, []⟩]) = queuedFor b cs := by
    induction cs with
    | nil => simp [queuedFor]
    | cons c cs ih => rw [List.cons_append, queuedFor, queuedFor, ih]
  rw [getConnection]
  split_ifs
  · rfl
  · exact hnew

theorem exists_mem_getConnection : ∃ c ∈ getConnection a cs, c.address = a := by
  rw [getConnection]
  split_ifs with hany
  · obtain ⟨c, hc, heq⟩ := List.any_eq_true.1 hany
    exact ⟨c, hc, beq_iff_eq.1 heq⟩
  · exact ⟨⟨a, []⟩, by simp, rfl⟩

theorem queuedFor_queue (h : ∃ c ∈ cs, c.address = a) :
    queuedFor b (queue a buf cs) = queuedFor b cs ++ if b = a then [buf] else [] := by
  induction cs with
  | nil => simp at h
  | cons c cs ih =>
      rw [queue]
      by_cases hc : c.address = a
      · rw [if_pos hc, queuedFor, queuedFor]
        by_cases hb : b = a
        · rw [if_pos (hc.trans hb.symm), if_pos (hc.trans hb.symm), if_pos hb]
        · have hcb : ¬ c.address = b := fun heq => hb (heq.symm.trans hc)
          rw [if_neg hcb, if_neg hcb, if_neg hb, List.append_nil]
      · have hrest : ∃ c ∈ cs, c.address = a := by
          obtain ⟨c', hc', heq⟩ := h
          rcases List.mem_cons.1 hc' with rfl | hc'
          · exact absurd heq hc
          · exact ⟨c', hc', heq⟩
        rw [if_neg hc, queuedFor, queuedFor, ih hrest]
        by_cases hcb : c.address = b
        · have hb : ¬ b = a := fun heq => hc (hcb.trans heq)
          rw [if_pos hcb, if_pos hcb, if_neg hb, List.append_nil]
        · rw [if_neg hcb, if_neg hcb]

/-- **A segment is queued for its address**, behind what was queued before. -/
theorem queuedFor_use_segment (l : LOWPANConvergenceLayer) :
    queuedFor b (l.use a (.segment buf)).connectionList =
      queuedFor b l.connectionList ++ if b = a then [buf] else [] := by
  rw [use, queuedFor_queue exists_mem_getConnection, queuedFor_getConnection]

/-- A frame is not used in the same way for another address. -/
theorem use_eq_iff (l : LOWPANConvergenceLayer) (frame : Frame) :
    l.use b frame = l.use a frame ↔ b = a := by
  refine ⟨fun h => ?_, fun h => h ▸ rfl⟩
  cases frame with
  | segment buf =>
      have hqueued := congrArg (fun l => queuedFor b (LOWPANConvergenceLayer.connectionList l)) h
      simp only [queuedFor_use_segment, if_true] at hqueued
      by_contra hne
      rw [if_neg hne] at hqueued
      exact absurd (List.append_cancel_left hqueued) (List.cons_ne_nil _ _)
  | announcement beacon =>
      have hannounced := congrArg LOWPANConvergenceLayer.announcements h
      have hlast := List.append_cancel_left hannounced
      exact congrArg Prod.fst (List.cons.inj hlast).1

/-- An announcement is no segment. -/
theorem use_announcement_ne {l : LOWPANConvergenceLayer} {beacon : Bytes} :
    l.use b (.announcement beacon) ≠ l.use a (.segment buf) := by
  intro h
  have hannounced : l.announcements ++ [(b, beacon)] = l.announcements :=
    congrArg LOWPANConvergenceLayer.announcements h
  exact absurd (List.append_right_eq_self.1 hannounced) (List.cons_ne_nil _ _)

end Connections

/-! ### The frames that are handled -/

section Rounds

variable {w : Surroundings} {l : LOWPANConvergenceLayer} {address : UInt16} {buf : Bytes}

/-- An announcement is taken exactly if it has the format, and its answer is sent. -/
theorem announcement_iff {l' l'' : LOWPANConvergenceLayer} {beacon : Bytes} :
    (match (DiscoveryAnnouncement.read w.resources .create).run ⟨beacon, false, false, w.stale⟩ with
      | (.error e, _) => .error e
      | (.ok _, _) =>
          match w.answering with
          | .error e => .error e
          | .ok _ => .ok l') = (.ok l'' : Except Exn LOWPANConvergenceLayer) ↔
      l' = l'' ∧ DiscoveryAnnouncement.Announces w.resources beacon w.stale ∧
        w.answering = .ok () := by
  rw [← DiscoveryAnnouncement.accepts_iff]
  rcases (DiscoveryAnnouncement.read w.resources .create).run ⟨beacon, false, false, w.stale⟩ with
    ⟨_ | d, s⟩
  · simp
  · cases w.answering with
    | error e => simp
    | ok _ => simp

theorem segment_iff {l' l'' : LOWPANConvergenceLayer} :
    (match w.queueing with
      | .error e => .error e
      | .ok _ => .ok l') = (.ok l'' : Except Exn LOWPANConvergenceLayer) ↔
      l' = l'' ∧ w.queueing = .ok () := by
  cases w.queueing with
  | error e => simp
  | ok _ => simp

/-- **Which frames are handled.** -/
theorem handles_iff {origin : Origin} (h : origin.Fits l) :
    Handles w l origin ↔ Meets w l origin := by
  cases origin with
  | peer address frame =>
      obtain ⟨hne, hfits⟩ := h
      have hlen : (sendCb address frame.buf).length = frame.buf.length + 2 := by
        simp [sendCb, addressBytes]
      have hpos : 0 < frame.buf.length := List.length_pos_iff.2 hne
      rw [Handles, receiveFrame, List.take_of_length_le (hlen.trans_le hfits), if_neg (by omega),
        if_neg (by omega), handleFrame_sendCb]
      cases frame with
      | segment buf =>
          rw [Meets, Frame.buf]
          by_cases hextended : Extended (sendCb address buf)
          · refine iff_of_false ?_ fun hmeets => hmeets.2.1 hextended
            rw [if_pos hextended]
            split_ifs
            · simp
            · rw [announcement_iff]
              exact fun htaken => use_announcement_ne htaken.1
          · rw [if_neg hextended, segment_iff, use_eq_iff, joinAddress_eq_iff,
              and_iff_right hextended]
      | announcement beacon =>
          have hextended : Extended (sendCb address (extendedMask :: discoveryBit :: beacon)) :=
            ⟨(by decide : extendedMask &&& extendedMask ≠ 0),
              (by decide : discoveryBit &&& discoveryBit ≠ 0)⟩
          rw [Meets, Frame.buf, if_pos hextended, if_neg (by simp), announcement_iff]
          rw [List.drop_succ_cons, List.drop_succ_cons, List.drop_zero, use_eq_iff,
            joinAddress_eq_iff]
  | other datagram =>
      have hinfix : datagram.take l.maxmsgsize <:+: datagram := (List.take_prefix _ _).isInfix
      rw [Handles, Meets, receiveFrame]
      generalize datagram.take l.maxmsgsize = data at hinfix
      by_cases hnil : data = []
      · subst hnil
        exact iff_of_true ⟨l, rfl, .inl rfl⟩ (.inl rfl)
      have hpos : 0 < data.length := List.length_pos_iff.2 hnil
      rw [if_neg (by omega), or_iff_right hnil]
      by_cases htwo : 2 ≤ data.length
      · rw [if_neg (by omega), and_iff_right htwo, handleFrame]
        dsimp only
        by_cases hextended : Extended data
        · rw [if_pos hextended, if_pos hextended]
          by_cases hfour : 4 ≤ data.length
          · rw [if_neg (by omega), and_iff_right hfour]
            simp only [announcement_iff]
            constructor
            · rintro ⟨l', ⟨-, hmeets⟩, -⟩
              exact hmeets
            · intro hmeets
              refine ⟨_, ⟨rfl, hmeets⟩, .inr ⟨_, _, rfl, ?_⟩⟩
              exact ((List.take_prefix _ _).isInfix.trans (List.drop_suffix 2 data).isInfix).trans
                hinfix
          · rw [if_pos (by omega)]
            exact iff_of_false (by simp) fun hmeets => hfour hmeets.1
        · rw [if_neg hextended, if_neg hextended]
          simp only [segment_iff]
          constructor
          · rintro ⟨l', ⟨-, hmeets⟩, -⟩
            exact hmeets
          · intro hmeets
            exact ⟨_, ⟨rfl, hmeets⟩, .inr ⟨_, _, rfl, (List.take_prefix _ _).isInfix.trans hinfix⟩⟩
      · rw [if_pos (by omega)]
        exact iff_of_false (by simp) fun hmeets => htwo hmeets.1

end Rounds

/-- A receiver whose streams take everything. -/
def sampleSurroundings : Surroundings := ⟨⟨8192, 16⟩, [], .ok (), .ok ()⟩

/-- A layer without connections. -/
def sampleLayer : LOWPANConvergenceLayer := ⟨115, [], []⟩

/-- A segment of the node 0x0142. -/
theorem handles_iff_sample :
    Handles sampleSurroundings sampleLayer (.peer 0x0142 (.segment [0x01, 0x68])) := by
  have hfits : (Origin.peer 0x0142 (.segment [0x01, 0x68])).Fits sampleLayer :=
    And.intro (by decide) (by decide)
  exact (handles_iff hfits).2 (And.intro (by decide) (And.intro (by decide) rfl))

/-- **What goes wrong**: a segment of the node 0x0080 is taken for one of the node 0xff80; a frame
of one byte has no address; one that looks like an announcement may have a negative length; and one
that is no announcement ends the loop. -/
theorem not_handles :
    ¬ Handles sampleSurroundings sampleLayer (.peer 0x0080 (.segment [0x01, 0x68])) ∧
      ¬ Handles sampleSurroundings sampleLayer (.other [0x01]) ∧
      ¬ Handles sampleSurroundings sampleLayer (.other [0x08, 0x80]) ∧
      ¬ Handles sampleSurroundings sampleLayer (.other [0x08, 0x80, 0x03, 0x42, 0x01]) := by
  have hthrows {datagram : Bytes} {e : Exn}
      (h : receiveFrame sampleSurroundings sampleLayer datagram = .error e) :
      ¬ Handles sampleSurroundings sampleLayer (.other datagram) := by
    rintro ⟨l', hl', -⟩
    cases h.symm.trans hl'
  have haddress : receiveFrame sampleSurroundings sampleLayer (sendCb 0x0080 [0x01, 0x68]) =
      .ok (sampleLayer.use 0xff80 (.segment [0x01, 0x68])) := rfl
  refine ⟨fun h => ?_, hthrows rfl, hthrows rfl, hthrows rfl⟩
  exact absurd (Except.ok.inj (haddress.symm.trans h)) (by decide)

end LOWPANConvergenceLayer

end IbrDtn
