import IbrDtn.Data.Encoding
import IbrDtn.Library.Decimal
import IbrDtn.Library.Region

/-!
# Datagram services

This file models `send` and `recvfrom` of `daemon/src/net/UDPDatagramService.cpp` and
`daemon/src/net/LOWPANDatagramService.cpp`: a frame is put together in a buffer on the stack and
handed to a socket, and taken apart in another one.  The sockets belong to the library `ibrcommon`,
which is not part of the repository: a datagram is the bytes that one socket was given and that
the other one delivers, cut to the buffer of the receiver.

The variable `memory` stands for the contents of the stack before a buffer was put there.

## Main definitions

* `Frame` : what `send` is asked to transmit.
* `UDPDatagramService`, `LOWPANDatagramService` : the functions of the two services.
* `Service.Delivers` : what is received is what was sent.

## Main results

* `Service.delivers_iff` : the frames that are delivered are those of one of the four functions.
-/

namespace IbrDtn

/-- What `send` is asked to transmit: `type`, `flags`, `seqno` and the `length` bytes at `buf`. -/
structure Frame where
  type : UInt8
  flags : UInt8
  seqno : UInt32
  payload : Bytes
deriving DecidableEq, Repr

def headerBroadcast : UInt8 := 1
def headerSegment : UInt8 := 2
def headerAck : UInt8 := 4

/-- What `send` did: the buffer of the datagram, and the bytes that the socket was given. -/
structure Sent where
  tmp : Region
  wire : Bytes

/-- What `recvfrom` did: the reference parameters, the destination buffer and the returned length,
and how it came there: `ret` bytes were received, and `copied` bytes behind the first `skipped` ones
were copied to the buffer. -/
structure Received where
  type : UInt8
  flags : UInt8
  seqno : UInt32
  address : Bytes
  buf : Region
  length : UInt64
  ret : UInt64
  skipped : ℕ
  copied : ℕ

/-- Only bytes that were received were copied, only into the buffer, and the length is not above
that of the buffer. -/
structure Received.Safe (r : Received) : Prop where
  received : r.skipped + r.copied ≤ r.ret.toNat
  inside : r.buf.inside = true
  length_le : r.length.toNat ≤ r.buf.size

/-- `socket.receive(tmp, length)`: the bytes of the datagram that fit into the buffer. -/
def receive (tmp : Region) (datagram : Bytes) : UInt64 × Region :=
  let bs := datagram.take tmp.size
  (UInt64.ofNat bs.length, tmp.store 0 bs)

/-! ### The service for UDP -/

namespace UDPDatagramService

/-- `_params.max_msg_length`. -/
def maxMsgLength (mtu : ℕ) : ℕ := mtu - 2

/-- `_params.max_seq_numbers`. -/
def maxSeqNumbers : ℕ := 8

/-- `(0xf0 & (flags << 4)) | (0x0f & seqno)`. -/
def pack (flags : UInt8) (seqno : UInt32) : UInt8 :=
  ((0xf0 : UInt8) &&& (flags <<< 4)) ||| ((0x0f : UInt8) &&& seqno.toUInt8)

/-- The frame in a buffer of the given size: two bytes of header, and the payload. -/
def assemble (size : ℕ) (memory : ℕ → UInt8) (f : Frame) : Sent :=
  let tmp := Region.alloc size memory
  let tmp := tmp.store 0 [f.type]
  let tmp := tmp.store 1 [pack f.flags f.seqno]
  let tmp := tmp.store 2 f.payload
  ⟨tmp, tmp.load 0 (f.payload.length + 2)⟩

/-- `UDPDatagramService::send` to a destination. -/
def send (memory : ℕ → UInt8) (f : Frame) : Sent := assemble (f.payload.length + 2) memory f

/-- `UDPDatagramService::send` to all neighbors, whose buffer has no room for the header. -/
def broadcast (memory : ℕ → UInt8) (f : Frame) : Sent := assemble f.payload.length memory f

/-- `UDPDatagramService::encode`. -/
def encode (address : Bytes) (port : ℕ) : Bytes :=
  ascii ['i', 'p', '='] ++ (address ++ (ascii [';', 'p', 'o', 'r', 't', '='] ++
    (Decimal.numeral port ++ ascii [';'])))

/-- `UDPDatagramService::recvfrom`, of a datagram from an address. -/
def recvfrom (memory : ℕ → UInt8) (buf : Region) (datagram address : Bytes) (port : ℕ) : Received :=
  let (ret, tmp) := receive (Region.alloc (buf.size + 2) memory) datagram
  let count := ret - 2
  { type := tmp.cell 0
    flags := (0x0f : UInt8) &&& (tmp.cell 1 >>> 4)
    seqno := ((0x0f : UInt8) &&& tmp.cell 1).toUInt32
    address := encode address port
    buf := buf.store 0 (tmp.load 2 count.toNat)
    length := ret - 2
    ret
    skipped := 2
    copied := count.toNat }

end UDPDatagramService

/-! ### The service for LoWPAN -/

namespace LOWPANDatagramService

/-- `_params.max_msg_length`. -/
def maxMsgLength : ℕ := 111

/-- `_params.max_seq_numbers`. -/
def maxSeqNumbers : ℕ := 8

/-- `EXTENDED_MASK`. -/
def extendedMask : UInt8 := 0x40

/-- `(0x30 & (flags << 4)) | (0x0f & seqno)`. -/
def pack (flags : UInt8) (seqno : UInt32) : UInt8 :=
  ((0x30 : UInt8) &&& (flags <<< 4)) ||| ((0x0f : UInt8) &&& seqno.toUInt8)

/-- The bytes of a short address in memory. -/
def addressBytes (addr : UInt16) : Bytes := [addr.toUInt8, (addr >>> 8).toUInt8]

/-- `LOWPANDatagramService::send` to a destination, with the own short address. The frame is put
together in `tmp`, and the socket is given `buf`, behind whose payload is `behind`. -/
def send (memory behind : ℕ → UInt8) (localAddr : UInt16) (f : Frame) : Except Exn Sent :=
  let length := f.payload.length
  if length > maxMsgLength then .error (.exception "send failed")
  else
    let buf := (Region.alloc length behind).store 0 f.payload
    let tmp := Region.alloc (length + 4) memory
    let tmp := tmp.store 0 [pack f.flags f.seqno]
    let (tmp, endOfPayload) :=
      if f.type = headerSegment then (tmp.store 1 f.payload, length + 1)
      else
        let tmp := tmp.store 0 [tmp.cell 0 ||| extendedMask]
        let tmp := tmp.store 1 [f.type]
        (tmp.store 2 f.payload, length + 2)
    let tmp := tmp.store endOfPayload (addressBytes localAddr)
    .ok ⟨tmp, buf.load 0 (endOfPayload + 2)⟩

/-- `LOWPANDatagramService::send` to all neighbors, which sends a payload byte in any case. -/
def broadcast (memory behind : ℕ → UInt8) (localAddr : UInt16) (f : Frame) : Except Exn Sent :=
  if f.payload.length > maxMsgLength then .error (.exception "send failed")
  else
    let buf := (Region.alloc f.payload.length behind).store 0 f.payload
    let length := if f.payload.length = 0 then 1 else f.payload.length
    let tmp := Region.alloc (length + 4) memory
    let tmp := tmp.store 0 [pack f.flags f.seqno]
    let tmp := tmp.store 0 [tmp.cell 0 ||| extendedMask]
    let tmp := tmp.store 1 [f.type]
    let tmp := tmp.store 2 (buf.load 0 length)
    let tmp := tmp.store (length + 2) (addressBytes localAddr)
    .ok ⟨tmp, buf.load 0 (length + 4)⟩

/-- `LOWPANDatagramService::encode`. -/
def encode (addr : UInt16) (panid : ℕ) : Bytes :=
  ascii ['a', 'd', 'd', 'r', '='] ++ (Decimal.numeral addr.toNat ++
    (ascii [';', 'p', 'a', 'n', '='] ++ (Decimal.numeral panid ++ ascii [';'])))

/-- `((char)high << 8) | low`, of signed characters. -/
def joinAddress (high low : UInt8) : UInt16 :=
  (high.toUInt16 <<< 8) ||| (if low.toNat < 0x80 then low.toUInt16 else low.toUInt16 ||| 0xff00)

/-- `LOWPANDatagramService::recvfrom`, in the network `panid`. The address is looked for at the end
of the destination buffer, not at that of the frame. -/
def recvfrom (memory : ℕ → UInt8) (panid : ℕ) (buf : Region) (datagram : Bytes) : Received :=
  let (ret, tmp) := receive (Region.alloc (buf.size + 4) memory) datagram
  let extended := tmp.cell 0 &&& extendedMask != 0
  let skipped := if extended then 2 else 1
  let count := if extended then ret - 4 else ret - 3
  let sender := joinAddress (tmp.cell (buf.size - 1)) (tmp.cell (buf.size - 2))
  { type := if extended then tmp.cell 1 else headerSegment
    flags := (0x0f : UInt8) &&& (tmp.cell 0 >>> 4)
    seqno := ((0x0f : UInt8) &&& tmp.cell 0).toUInt32
    address := encode sender panid
    buf := buf.store 0 (tmp.load skipped count.toNat)
    length := ret - 2
    ret
    skipped
    copied := count.toNat }

end LOWPANDatagramService

/-! ### What arrives of a frame -/

/-- A service with its parameters: the maximum transmission unit of the one, and the network of the
other, whose nodes have short addresses. -/
inductive Service where
  | udp (mtu : ℕ)
  | lowpan (panid : ℕ)
deriving DecidableEq, Repr

namespace Service

/-- `_params.max_msg_length`. -/
def maxMsgLength : Service → ℕ
  | udp mtu => UDPDatagramService.maxMsgLength mtu
  | lowpan _ => LOWPANDatagramService.maxMsgLength

/-- `_params.max_seq_numbers`. -/
def maxSeqNumbers : Service → ℕ
  | udp _ => UDPDatagramService.maxSeqNumbers
  | lowpan _ => LOWPANDatagramService.maxSeqNumbers

/-- What the program does not determine: the contents of the stack before `send` and before
`recvfrom`, what lies behind the payload, the short address and the address of the sender. -/
structure Surroundings where
  sender : ℕ → UInt8
  receiver : ℕ → UInt8
  behind : ℕ → UInt8
  shortAddress : UInt16
  address : Bytes
  port : ℕ

/-- `send` to a destination, or to all neighbors. -/
def send (s : Service) (w : Surroundings) (toAll : Bool) (f : Frame) : Except Exn Sent :=
  match s with
  | udp _ =>
      .ok (if toAll then UDPDatagramService.broadcast w.sender f
        else UDPDatagramService.send w.sender f)
  | lowpan _ =>
      if toAll then LOWPANDatagramService.broadcast w.sender w.behind w.shortAddress f
      else LOWPANDatagramService.send w.sender w.behind w.shortAddress f

/-- `recvfrom` into a buffer. -/
def recvfrom (s : Service) (w : Surroundings) (buf : Region) (datagram : Bytes) : Received :=
  match s with
  | udp _ => UDPDatagramService.recvfrom w.receiver buf datagram w.address w.port
  | lowpan panid => LOWPANDatagramService.recvfrom w.receiver panid buf datagram

/-- The text of the address of the sender. -/
def senderAddress (s : Service) (w : Surroundings) : Bytes :=
  match s with
  | udp _ => UDPDatagramService.encode w.address w.port
  | lowpan panid => LOWPANDatagramService.encode w.shortAddress panid

/-- The frames of the convergence layer: one of three types, two bits of flags, a sequence number
and a payload within the bounds of the service. -/
structure Transmits (s : Service) (f : Frame) : Prop where
  type_mem : f.type = headerBroadcast ∨ f.type = headerSegment ∨ f.type = headerAck
  flags_lt : f.flags.toNat < 4
  seqno_lt : f.seqno.toNat < s.maxSeqNumbers
  length_le : f.payload.length ≤ s.maxMsgLength

/-- **The frame is delivered**: `send` stays in its buffer, and `recvfrom` gives back the frame with
its length and the address of the sender. -/
def Delivers (s : Service) (w : Surroundings) (toAll : Bool) (buf : Region) (f : Frame) : Prop :=
  ∃ sent, s.send w toAll f = .ok sent ∧ sent.tmp.inside = true ∧
    (s.recvfrom w buf sent.wire).type = f.type ∧
    (s.recvfrom w buf sent.wire).flags = f.flags ∧
    (s.recvfrom w buf sent.wire).seqno = f.seqno ∧
    (s.recvfrom w buf sent.wire).buf.load 0 f.payload.length = f.payload ∧
    (s.recvfrom w buf sent.wire).length.toNat = f.payload.length ∧
    (s.recvfrom w buf sent.wire).address = s.senderAddress w

/-! ### Frames of the service for UDP -/

theorem wire_assemble (size : ℕ) (memory : ℕ → UInt8) (f : Frame) :
    (UDPDatagramService.assemble size memory f).wire =
      f.type :: UDPDatagramService.pack f.flags f.seqno :: f.payload := by
  rw [UDPDatagramService.assemble]
  dsimp only
  rw [Nat.add_comm, Region.load_add, Region.load_store_of_le _ 2 _ (by omega), Nat.zero_add,
    Region.load_store]
  rfl

/-- The buffer has room for the frame if it has room for the header and the payload. -/
theorem inside_assemble (size : ℕ) (memory : ℕ → UInt8) (f : Frame) :
    (UDPDatagramService.assemble size memory f).tmp.inside = true ↔
      f.payload.length + 2 ≤ size := by
  simp only [UDPDatagramService.assemble, Region.inside_store, Region.inside_alloc,
    Region.size_store, Region.size_alloc, List.length_singleton, true_and]
  omega

theorem unpack_pack : ∀ (flags : Fin 4) (seqno : Fin 8),
    let packed := UDPDatagramService.pack (UInt8.ofNat flags) (UInt32.ofNat seqno)
    (0x0f : UInt8) &&& (packed >>> 4) = UInt8.ofNat flags ∧
      ((0x0f : UInt8) &&& packed).toUInt32 = UInt32.ofNat seqno := by
  decide

/-- What a buffer receives that has room for the datagram. -/
theorem receive_eq (tmp : Region) {datagram : Bytes} (h : datagram.length ≤ tmp.size) :
    receive tmp datagram = (UInt64.ofNat datagram.length, tmp.store 0 datagram) := by
  rw [receive, List.take_of_length_le h]

/-- What is left of a length behind a header. -/
theorem toNat_ofNat_sub {n : ℕ} {k : UInt64} (h : n < 2 ^ 64) (hk : k.toNat ≤ n) :
    (UInt64.ofNat n - k).toNat = n - k.toNat := by
  have hle : k ≤ UInt64.ofNat n := by rwa [UInt64.le_iff_toNat_le, EID.toNat_ofNat_of_lt h]
  rw [UInt64.toNat_sub_of_le _ _ hle, EID.toNat_ofNat_of_lt h]

/-- A length that is less than that of the header wraps around. -/
theorem toNat_ofNat_sub_of_lt {n : ℕ} {k : UInt64} (hk : n < k.toNat) :
    (UInt64.ofNat n - k).toNat = 2 ^ 64 + n - k.toNat := by
  have hlt := k.toNat_lt
  rw [UInt64.toNat_sub, EID.toNat_ofNat_of_lt (by omega)]
  omega

/-- **A frame that was sent to a destination is received** as it was. -/
theorem recvfrom_assemble {mtu : ℕ} {f : Frame} (hf : (udp mtu).Transmits f) {buf : Region}
    (hbuf : f.payload.length ≤ buf.size) (hroom : f.payload.length + 2 < 2 ^ 64)
    (memory : ℕ → UInt8) (address : Bytes) (port : ℕ) :
    UDPDatagramService.recvfrom memory buf
        (f.type :: UDPDatagramService.pack f.flags f.seqno :: f.payload) address port =
      { type := f.type
        flags := f.flags
        seqno := f.seqno
        address := UDPDatagramService.encode address port
        buf := buf.store 0 f.payload
        length := UInt64.ofNat f.payload.length
        ret := UInt64.ofNat (2 + f.payload.length)
        skipped := 2
        copied := f.payload.length } := by
  obtain ⟨hflags, hseqno⟩ := unpack_pack ⟨f.flags.toNat, hf.flags_lt⟩ ⟨f.seqno.toNat, hf.seqno_lt⟩
  simp only [UInt8.ofNat_toNat, UInt32.ofNat_toNat] at hflags hseqno
  have hlen : (f.type :: UDPDatagramService.pack f.flags f.seqno :: f.payload).length =
      2 + f.payload.length := by
    rw [List.length_cons, List.length_cons]
    omega
  have hcount : (UInt64.ofNat (2 + f.payload.length) - 2).toNat = f.payload.length :=
    (toNat_ofNat_sub (by omega) (Nat.le_add_right 2 _)).trans (Nat.add_sub_cancel_left 2 _)
  have hlength : UInt64.ofNat (2 + f.payload.length) - 2 = UInt64.ofNat f.payload.length := by
    rw [← UInt64.toNat_inj, hcount, EID.toNat_ofNat_of_lt (by omega)]
  have hcell {i : ℕ} {b : UInt8} (r : Region)
      (h : (f.type :: UDPDatagramService.pack f.flags f.seqno :: f.payload)[i]? = some b) :
      (r.store 0 (f.type :: UDPDatagramService.pack f.flags f.seqno :: f.payload)).cell i = b := by
    rw [Region.store]
    dsimp only
    rw [if_pos (Nat.zero_le i), Nat.sub_zero, h, Option.getD_some]
  have hload (r : Region) : (r.store 0 (f.type :: UDPDatagramService.pack f.flags f.seqno ::
      f.payload)).load 2 f.payload.length = f.payload :=
    r.load_store_append 0 [f.type, UDPDatagramService.pack f.flags f.seqno] f.payload
  rw [UDPDatagramService.recvfrom, receive_eq _ (by rw [hlen]; simp; omega), hlen]
  dsimp only
  rw [hcell _ rfl, hcell _ rfl, hflags, hseqno, hcount, hload, hlength]

/-- **A frame that is sent to a destination is delivered.** -/
theorem delivers_udp {mtu : ℕ} {f : Frame} (hf : (udp mtu).Transmits f) {buf : Region}
    (hbuf : buf.size = (udp mtu).maxMsgLength) (hroom : (udp mtu).maxMsgLength + 4 < 2 ^ 64)
    (w : Surroundings) : (udp mtu).Delivers w false buf f := by
  have hle := hf.length_le
  have hrecv := @recvfrom_assemble mtu f hf buf (by omega) (by omega) w.receiver w.address w.port
  refine ⟨UDPDatagramService.send w.sender f, rfl, (inside_assemble _ _ _).2 le_rfl, ?_⟩
  simp only [UDPDatagramService.send, wire_assemble, recvfrom, hrecv, senderAddress,
    Region.load_store, true_and, and_true]
  exact EID.toNat_ofNat_of_lt (by omega)

/-- A frame that is sent to all neighbors does not fit its buffer. -/
theorem not_delivers_broadcast (mtu : ℕ) (w : Surroundings) (buf : Region) (f : Frame) :
    ¬ (udp mtu).Delivers w true buf f := by
  rintro ⟨sent, hsent, hinside, -⟩
  obtain rfl := Except.ok.inj hsent
  have := (inside_assemble _ _ _).1 hinside
  omega

/-! ### Frames of the service for LoWPAN -/

/-- The length that `recvfrom` returns counts a byte of the header. -/
theorem length_recvfrom_lowpan {panid : ℕ} (w : Surroundings) {buf : Region}
    (hroom : buf.size + 4 < 2 ^ 64) {datagram : Bytes} {n : ℕ}
    (hlen : datagram.length = 2 + n) (hle : datagram.length ≤ buf.size + 4) :
    ((lowpan panid).recvfrom w buf datagram).length.toNat = n := by
  rw [recvfrom, LOWPANDatagramService.recvfrom, receive_eq _ hle, hlen]
  exact (toNat_ofNat_sub (by omega) (Nat.le_add_right 2 n)).trans (Nat.add_sub_cancel_left 2 n)

/-- What a socket is given for a frame: more than two bytes beyond the payload. -/
theorem length_wire_lowpan {panid : ℕ} {w : Surroundings} {toAll : Bool} {f : Frame} {sent : Sent}
    (h : (lowpan panid).send w toAll f = .ok sent) :
    f.payload.length + 3 ≤ sent.wire.length ∧
      sent.wire.length ≤ LOWPANDatagramService.maxMsgLength + 4 := by
  rw [send] at h
  have hmax : LOWPANDatagramService.maxMsgLength = 111 := rfl
  cases toAll with
  | true =>
      simp only [if_true, LOWPANDatagramService.broadcast] at h
      split_ifs at h with hlen hzero
      all_goals
        obtain rfl := Except.ok.inj h
        simp only [Region.length_load]
        omega
  | false =>
      simp only [Bool.false_eq_true, if_false, LOWPANDatagramService.send] at h
      split_ifs at h with hlen htype
      all_goals
        obtain rfl := Except.ok.inj h
        simp only [Region.length_load]
        omega

/-- **A frame is never delivered**: the returned length is not that of the payload. -/
theorem not_delivers_lowpan {panid : ℕ} {f : Frame} {buf : Region}
    (hbuf : buf.size = LOWPANDatagramService.maxMsgLength) (w : Surroundings) (toAll : Bool) :
    ¬ (lowpan panid).Delivers w toAll buf f := by
  rintro ⟨sent, hsent, -, -, -, -, -, hlength, -⟩
  obtain ⟨hge, hle⟩ := length_wire_lowpan hsent
  have hmax : LOWPANDatagramService.maxMsgLength = 111 := rfl
  have hlen : sent.wire.length = 2 + (sent.wire.length - 2) := by omega
  have hreturn := @length_recvfrom_lowpan panid w buf (by omega) sent.wire _ hlen (by omega)
  omega

/-! ### What is copied of any datagram -/

/-- What is copied from behind a part of the header was received if there is a whole header. -/
theorem copied_le_iff {n skipped : ℕ} {k : UInt64} (hn : n < 2 ^ 64)
    (hskipped : skipped ≤ k.toNat) :
    skipped + (UInt64.ofNat n - k).toNat ≤ n ↔ k.toNat ≤ n := by
  constructor
  · intro h
    by_contra hlt
    have hwrap := toNat_ofNat_sub_of_lt (Nat.lt_of_not_le hlt)
    have hk := k.toNat_lt
    omega
  · intro h
    have hcount := toNat_ofNat_sub hn h
    omega

/-- What is received of `n` bytes is safe if they hold a header of `k` bytes and are not more than
two beyond the buffer. -/
theorem safe_iff {r : Received} {n size : ℕ} {k : UInt64} (hn : n < 2 ^ 64) (hk : 2 ≤ k.toNat)
    (hret : r.ret = UInt64.ofNat n) (hcopied : r.copied = (UInt64.ofNat n - k).toNat)
    (hskipped : r.skipped ≤ k.toNat) (hsize : r.buf.size = size)
    (hinside : r.buf.inside = true ↔ r.copied ≤ size) (hlength : r.length = UInt64.ofNat n - 2) :
    r.Safe ↔ k.toNat ≤ n ∧ n ≤ size + 2 := by
  have hreceived := copied_le_iff hn hskipped
  have hret' : r.ret.toNat = n := by rw [hret, EID.toNat_ofNat_of_lt hn]
  have hreturn (hge : k.toNat ≤ n) : r.length.toNat = n - 2 := by
    rw [hlength]
    exact toNat_ofNat_sub hn (hk.trans hge)
  constructor
  · rintro ⟨h, -, hle⟩
    rw [hret', hcopied] at h
    have hge := hreceived.1 h
    rw [hreturn hge, hsize] at hle
    exact ⟨hge, by omega⟩
  · rintro ⟨hge, hle⟩
    have hcount := toNat_ofNat_sub hn hge
    refine ⟨?_, hinside.2 (by omega), ?_⟩
    · rw [hret', hcopied]
      exact hreceived.2 hge
    · rw [hreturn hge, hsize]
      omega

theorem inside_store_load {buf tmp : Region} (hinside : buf.inside = true) (place count : ℕ) :
    (buf.store 0 (tmp.load place count)).inside = true ↔ count ≤ buf.size := by
  rw [Region.inside_store, Region.length_load, Nat.zero_add, and_iff_right hinside]

/-- **The service for UDP copies what was received** of every datagram with a header. -/
theorem safe_udp_iff {buf : Region} (hinside : buf.inside = true) (hroom : buf.size + 4 < 2 ^ 64)
    {datagram : Bytes} (hle : datagram.length ≤ buf.size + 2) (memory : ℕ → UInt8)
    (address : Bytes) (port : ℕ) :
    (UDPDatagramService.recvfrom memory buf datagram address port).Safe ↔ 2 ≤ datagram.length := by
  have htwo : (2 : UInt64).toNat = 2 := rfl
  rw [UDPDatagramService.recvfrom, receive_eq (.alloc (buf.size + 2) memory) hle]
  rw [safe_iff (k := 2) (by omega) le_rfl rfl rfl htwo.ge rfl (inside_store_load hinside _ _) rfl]
  exact and_iff_left hle

/-- A datagram of the service for LoWPAN has the extended header, in a buffer that had the given
first byte. -/
def extended (datagram : Bytes) (old : UInt8) : Bool :=
  (datagram[0]?).getD old &&& LOWPANDatagramService.extendedMask != 0

/-- **The service for LoWPAN copies what was received** of every datagram with a header and an
address, and returns a length that is not above that of the buffer if the datagram has not more than
two further bytes. -/
theorem safe_lowpan_iff {buf : Region} (hinside : buf.inside = true)
    (hroom : buf.size + 4 < 2 ^ 64) {datagram : Bytes} (hle : datagram.length ≤ buf.size + 4)
    (memory : ℕ → UInt8) (panid : ℕ) :
    (LOWPANDatagramService.recvfrom memory panid buf datagram).Safe ↔
      (if extended datagram (memory 0) then 4 else 3) ≤ datagram.length ∧
        datagram.length ≤ buf.size + 2 := by
  have hn : datagram.length < 2 ^ 64 := by omega
  have hcell : (((Region.alloc (buf.size + 4) memory).store 0 datagram).cell 0 &&&
      LOWPANDatagramService.extendedMask != 0) = extended datagram (memory 0) := rfl
  rw [LOWPANDatagramService.recvfrom, receive_eq (.alloc (buf.size + 4) memory) hle]
  dsimp only
  rw [hcell]
  cases extended datagram (memory 0) with
  | true =>
      have hfour : 2 ≤ (4 : UInt64).toNat := by decide
      exact safe_iff (k := 4) hn hfour rfl rfl hfour rfl (inside_store_load hinside _ _) rfl
  | false =>
      have hthree : 2 ≤ (3 : UInt64).toNat := by decide
      exact safe_iff (k := 3) hn hthree rfl rfl (le_trans one_le_two hthree) rfl
        (inside_store_load hinside _ _) rfl

/-! ### The frames that are delivered -/

/-- **Exactly the frames that the service for UDP sends to one destination are delivered.** -/
theorem delivers_iff {s : Service} {f : Frame} (hf : s.Transmits f) {buf : Region}
    (hbuf : buf.size = s.maxMsgLength) (hroom : s.maxMsgLength + 4 < 2 ^ 64) (w : Surroundings)
    (toAll : Bool) : s.Delivers w toAll buf f ↔ (∃ mtu, s = udp mtu) ∧ toAll = false := by
  cases s with
  | udp mtu =>
      cases toAll with
      | false => exact iff_of_true (delivers_udp hf hbuf hroom w) ⟨⟨mtu, rfl⟩, rfl⟩
      | true =>
          exact iff_of_false (not_delivers_broadcast mtu w buf f) fun h => Bool.noConfusion h.2
  | lowpan panid =>
      refine iff_of_false (not_delivers_lowpan hbuf w toAll) ?_
      rintro ⟨⟨mtu, h⟩, -⟩
      exact Service.noConfusion h

/-- A segment with two bytes. -/
def sampleFrame : Frame := ⟨headerSegment, 3, 5, [0x68, 0x69]⟩

/-- Memory full of zeros, on a node with the short address 7. -/
def sampleSurroundings : Surroundings :=
  ⟨fun _ => 0, fun _ => 0, fun _ => 0, 7, ascii [':', ':', '1'], 4556⟩

theorem delivers_iff_sample : (udp 1280).Delivers sampleSurroundings false
    (Region.alloc 1278 fun _ => 0) sampleFrame :=
  (delivers_iff ⟨Or.inr (Or.inl rfl), by decide, by decide, by decide⟩ rfl (by decide)
    sampleSurroundings false).2 ⟨⟨1280, rfl⟩, rfl⟩

/-- **A segment that is sent with the service for LoWPAN**: the socket is given the payload and what
lies behind it, and `recvfrom` answers that three bytes arrived. -/
theorem not_delivers_sample : ¬ (lowpan 9).Delivers sampleSurroundings false
    (Region.alloc 111 fun _ => 0) sampleFrame := by
  rintro ⟨sent, hsent, -, -, -, -, -, hlength, -⟩
  obtain rfl := Except.ok.inj hsent
  exact absurd hlength (by decide)

end Service

end IbrDtn
