import IbrDtn.Data.AdminRecord
import IbrDtn.Data.Encoding
import IbrDtn.Library.Recogniser

/-!
# Discovery announcements

This file models the reading of announcements in `daemon/src/net/DiscoveryAnnouncement.cpp` and
`DiscoveryService.cpp`.  An announcement is a beacon of one of two versions, or one of another
daemon: strings and numbers, none of which is checked against what was received.  A string of any
announced length is read into an array on the stack, and services are collected as long as the
counts of the beacon ask for more.

Beside the reader stands the format that it accepts: which numbers, strings and services must be
found, and what the process must have room for.

## Main definitions

* `Resources` : the room on the stack and in the memory.
* `DiscoveryAnnouncement.read` : `operator>>`.
* `DiscoveryAnnouncement.Announces` : the format.

## Main results

* `SDNV.recognises_read`, `BundleString.recognises_readWithin` : the formats of the parts.
* `DiscoveryAnnouncement.accepts_iff` : the reader accepts exactly the announcements of the format.
-/

namespace IbrDtn

open Parser (Admits Recognises recognises_pure recognises_throw)

/-- What a process has: room for arrays on the stack, in bytes, and for services of an
announcement in memory. -/
structure Resources where
  stack : ℕ
  heap : ℕ
deriving DecidableEq, Repr

/-! ### Numbers and strings -/

/-- `char data[n]; stream.read(data, n)`. -/
def readArray (r : Resources) (n : ℕ) : Parser Exn Bytes :=
  if n ≤ r.stack then Parser.readBytes n else throw (.undefined "an array beyond the stack")

/-- `operator>>(std::istream&, BundleString&)`, on a stack of limited size. -/
def BundleString.readWithin (r : Resources) : Parser Exn Bytes := do
  let length ← SDNV.read
  if 0 < length.toNat ∧ length.toNat < 2 ^ 63 then readArray r length.toNat else pure []

/-- A number of the format. -/
def SDNV.Counts : Format UInt64 := fun m v m' =>
  ∃ n : SDNV.Wire, n.value = v ∧ m.Starts n.bytes m'

/-- An array of the format: it fits the stack. -/
def Held (r : Resources) (n : ℕ) : Format Bytes := fun m bs m' =>
  n ≤ r.stack ∧ bs.length = n ∧ m.Starts bs m'

/-- A string of the format: its length, and that many bytes if the length is positive. -/
def BundleString.Spells (r : Resources) : Format Bytes := fun m t m' =>
  ∃ v m₁, SDNV.Counts m v m₁ ∧
    if 0 < v.toNat ∧ v.toNat < 2 ^ 63 then Held r v.toNat m₁ t m' else t = [] ∧ m' = m₁

namespace SDNV

theorem terminated_cons {b : UInt8} {bs : Bytes} : Terminated (b :: bs) ↔
    if b &&& 0x80 = 0 then bs = [] else Terminated bs := by
  cases bs with
  | nil =>
      change b &&& 0x80 = 0 ↔ _
      split_ifs with h <;> simp [h, Terminated]
  | cons c bs =>
      change b &&& 0x80 ≠ 0 ∧ _ ↔ _
      split_ifs with h <;> simp [h]

/-- What the reader collects in its buffer. -/
theorem recognises_readBuffer (room : ℕ) : Recognises (readBuffer room) fun m bs m' =>
    Terminated bs ∧ bs.length ≤ room ∧ m.Starts bs m' := by
  induction room with
  | zero =>
      refine (recognises_throw _).congr fun m bs m' => ⟨False.elim, ?_⟩
      rintro ⟨hends, hlen, -⟩
      obtain rfl := List.length_eq_zero_iff.1 (Nat.le_zero.1 hlen)
      exact hends
  | succ room ih =>
      refine (Parser.recognises_getByte.bind fun b => Parser.recognises_ite (c := b &&& 0x80 = 0)
        (fun _ => recognises_pure [b]) fun _ => ih.bind fun bs =>
          recognises_pure (b :: bs)).congr fun m bs m' => ?_
      constructor
      · rintro ⟨b, m₁, hnext, h⟩
        split_ifs at h with hb
        · obtain ⟨rfl, rfl⟩ := h
          refine ⟨hb, Nat.succ_le_succ (Nat.zero_le room), ?_⟩
          rw [Tape.starts_cons, hnext]
          exact ⟨rfl, .nil _⟩
        · obtain ⟨cs, m₂, ⟨hends, hlen, hstarts⟩, rfl, rfl⟩ := h
          refine ⟨.cons hb hends, Nat.succ_le_succ hlen, ?_⟩
          rw [Tape.starts_cons, hnext]
          exact ⟨rfl, hstarts⟩
      · rintro ⟨hends, hlen, hstarts⟩
        cases bs with
        | nil => exact hends.elim
        | cons b bs =>
            obtain ⟨hb, hbs⟩ := Tape.starts_cons.1 hstarts
            refine ⟨b, m.next.2, Prod.ext hb rfl, ?_⟩
            rw [terminated_cons] at hends
            split_ifs at hends ⊢ with hlow
            · subst hends
              exact ⟨rfl, Tape.starts_nil.1 hbs⟩
            · exact ⟨bs, m', ⟨hends, Nat.le_of_succ_le_succ hlen, hbs⟩, rfl, rfl⟩

/-- The value of the bytes that are read, or the exception that they throw. -/
theorem recognises_value (value : Except Exn UInt64) :
    Recognises (match value with
      | .ok val => pure val
      | .error e => throw e : Parser Exn UInt64) fun m v m' => value = .ok v ∧ m' = m := by
  cases value with
  | ok val =>
      refine (recognises_pure val).congr fun m v m' => and_congr_left fun _ => ?_
      rw [Except.ok.injEq, eq_comm]
  | error e =>
      refine (recognises_throw e).congr fun m v m' => ⟨False.elim, ?_⟩
      rintro ⟨⟨⟩, -⟩

/-- **The numbers that are read** are those on the wire. -/
theorem recognises_read : Recognises read Counts := by
  have hvalue (bs : Bytes) := recognises_value (decode bs)
  refine ((recognises_readBuffer maxLength).bind hvalue).congr fun m v m' => ?_
  constructor
  · rintro ⟨bs, m₁, ⟨hends, hlen, hstarts⟩, hdecode, rfl⟩
    exact ⟨⟨bs, v, hends, hlen, hdecode⟩, rfl, hstarts⟩
  · rintro ⟨n, rfl, hstarts⟩
    exact ⟨n.bytes, m', ⟨n.terminated, n.length_le, hstarts⟩, n.decoded, rfl⟩

end SDNV

theorem recognises_readArray (r : Resources) (n : ℕ) : Recognises (readArray r n) (Held r n) := by
  rw [readArray]
  split_ifs with hn
  · exact (Parser.recognises_readBytes n).congr fun m bs m' => (and_iff_right hn).symm
  · exact (recognises_throw _).congr fun m bs m' => ⟨False.elim, fun h => hn h.1⟩

namespace BundleString

theorem recognises_readWithin (r : Resources) : Recognises (readWithin r) (Spells r) :=
  SDNV.recognises_read.bind fun v => Parser.recognises_ite
    (fun _ => recognises_readArray r v.toNat) fun _ => recognises_pure []

end BundleString

/-! ### Services -/

/-- `class DiscoveryService`. -/
structure DiscoveryService where
  name : Bytes
  parameters : Bytes
deriving DecidableEq, Repr

namespace DiscoveryService

/-- `DiscoveryService::getLength`. -/
def getLength (s : DiscoveryService) : ℕ :=
  BundleString.getLength s.name + BundleString.getLength s.parameters

/-- `operator>>(std::istream&, DiscoveryService&)`. -/
def read (r : Resources) : Parser Exn DiscoveryService := do
  let name ← BundleString.readWithin r
  let parameters ← BundleString.readWithin r
  pure ⟨name, parameters⟩

/-- A service of the format. -/
def Described (r : Resources) : Format DiscoveryService := fun m s m' =>
  ∃ m₁, BundleString.Spells r m s.name m₁ ∧ BundleString.Spells r m₁ s.parameters m'

theorem recognises_read (r : Resources) : Recognises (read r) (Described r) := by
  have hstring := BundleString.recognises_readWithin r
  refine (hstring.bind fun name => hstring.bind fun parameters =>
    recognises_pure (⟨name, parameters⟩ : DiscoveryService)).congr fun m s m' => ?_
  constructor
  · rintro ⟨name, m₁, hname, parameters, m₂, hparameters, rfl, rfl⟩
    exact ⟨m₁, hname, hparameters⟩
  · rintro ⟨m₁, hname, hparameters⟩
    exact ⟨s.name, m₁, hname, s.parameters, m', hparameters, rfl, rfl⟩

variable {σ : Type} (again : σ → Bool) (step : σ → DiscoveryService → σ)

/-- The loops that collect services while `again` holds of a variable, which every service steps;
the last argument but one is the room that is left in memory. -/
def readWhile (r : Resources) : ℕ → σ → Parser Exn (List DiscoveryService)
  | 0, x => if again x then throw (.exception "std::bad_alloc") else pure []
  | room + 1, x =>
      if again x then do
        let service ← read r
        let services ← readWhile r room (step x service)
        pure (service :: services)
      else pure []

/-- The loop runs once for each of the services. -/
def RunsFor : σ → List DiscoveryService → Prop
  | x, [] => again x = false
  | x, s :: ss => again x = true ∧ RunsFor (step x s) ss

/-- **What a loop collects**: services that are found one behind the other, that the loop runs for,
and that fit the memory. -/
theorem recognises_readWhile (r : Resources) (room : ℕ) (x : σ) :
    Recognises (readWhile again step r room x) fun m ss m' =>
      ss.length ≤ room ∧ RunsFor again step x ss ∧ (Described r).Many m ss m' := by
  induction room generalizing x with
  | zero =>
      rw [readWhile]
      split_ifs with hagain
      · refine (recognises_throw _).congr fun m ss m' => ⟨False.elim, ?_⟩
        rintro ⟨hlen, hruns, -⟩
        obtain rfl := List.length_eq_zero_iff.1 (Nat.le_zero.1 hlen)
        exact Bool.false_ne_true (hruns.symm.trans hagain)
      · refine (recognises_pure []).congr fun m ss m' => ⟨?_, ?_⟩
        · rintro ⟨rfl, rfl⟩
          exact ⟨le_rfl, Bool.eq_false_iff.2 hagain, .nil _⟩
        · rintro ⟨hlen, -, hmany⟩
          obtain rfl := List.length_eq_zero_iff.1 (Nat.le_zero.1 hlen)
          exact ⟨rfl, Format.many_nil.1 hmany⟩
  | succ room ih =>
      rw [readWhile]
      split_ifs with hagain
      · refine ((recognises_read r).bind fun service => (ih (step x service)).bind fun services =>
          recognises_pure (service :: services)).congr fun m ss m' => ⟨?_, ?_⟩
        · rintro ⟨service, m₁, hread, services, m₂, ⟨hlen, hruns, hmany⟩, rfl, rfl⟩
          exact ⟨Nat.succ_le_succ hlen, ⟨hagain, hruns⟩, .cons hread hmany⟩
        · rintro ⟨hlen, hruns, hmany⟩
          cases ss with
          | nil => exact absurd (hruns.symm.trans hagain) Bool.false_ne_true
          | cons service services =>
              obtain ⟨m₁, hread, hmany⟩ := Format.many_cons.1 hmany
              exact ⟨service, m₁, hread, services, m',
                ⟨Nat.le_of_succ_le_succ hlen, hruns.2, hmany⟩, rfl, rfl⟩
      · refine (recognises_pure []).congr fun m ss m' => ⟨?_, ?_⟩
        · rintro ⟨rfl, rfl⟩
          exact ⟨Nat.zero_le _, Bool.eq_false_iff.2 hagain, .nil _⟩
        · rintro ⟨-, hruns, hmany⟩
          cases ss with
          | nil => exact ⟨rfl, Format.many_nil.1 hmany⟩
          | cons service services => exact absurd hruns.1 hagain

end DiscoveryService

/-! ### Announcements -/

/-- `class DiscoveryAnnouncement`, without the sequence number, which no reader looks at. -/
structure DiscoveryAnnouncement where
  version : UInt8
  flags : UInt8
  canonicalEid : EID
  services : List DiscoveryService
deriving DecidableEq, Repr

namespace DiscoveryAnnouncement

/-- The values of `DiscoveryVersion`. -/
def dtndIpdiscovery : UInt8 := 0x00
def discoVersion00 : UInt8 := 0x01
def discoVersion01 : UInt8 := 0x02

/-- The bit of `BEACON_FLAGS_V1`. -/
def beaconShort : UInt8 := 0x01

/-- The bits of `BEACON_FLAGS_V2` with contents that are read. -/
def beaconContainsEid : UInt8 := 0x01
def beaconServiceBlock : UInt8 := 0x02

/-- `DiscoveryAnnouncement announce`. -/
def create : DiscoveryAnnouncement := ⟨discoVersion00, 0, EID.none, []⟩

/-- `while (remain > 0)`, with a 32-bit number that every service is subtracted from. -/
def remains (remain : Int32) : Bool := 0 < remain

def subtract (remain : Int32) (s : DiscoveryService) : Int32 := remain - Int32.ofNat s.getLength

/-- `for (unsigned int i = 0; i < num_services.getValue(); i++)`. -/
def counts (n : UInt64) (i : UInt32) : Bool := i.toUInt64 < n

def advance (i : UInt32) (_ : DiscoveryService) : UInt32 := i + 1

/-- The case of `DISCO_VERSION_00`. -/
def readVersion00 (r : Resources) (a : DiscoveryAnnouncement) :
    Parser Exn DiscoveryAnnouncement := do
  let flags ← Parser.getByte (some a.flags)
  let a := { a with flags }
  if flags = beaconShort then pure { a with canonicalEid := EID.none }
  else do
    let beaconLen ← SDNV.read
    let eid ← BundleString.readWithin r
    let remain := beaconLen.toUInt32.toInt32 - Int32.ofNat (BundleString.getLength eid)
    let services ← DiscoveryService.readWhile remains subtract r r.heap remain
    pure { a with canonicalEid := EID.ofString eid, services }

/-- The end of the case of `DISCO_VERSION_01`: the services, if there are any. -/
def readServiceBlock (r : Resources) (a : DiscoveryAnnouncement) :
    Parser Exn DiscoveryAnnouncement :=
  if a.flags &&& beaconServiceBlock ≠ 0 then do
    let numServices ← SDNV.read
    let services ← DiscoveryService.readWhile (counts numServices) advance r r.heap 0
    pure { a with services }
  else pure a

/-- The case of `DISCO_VERSION_01`. -/
def readVersion01 (r : Resources) (a : DiscoveryAnnouncement) :
    Parser Exn DiscoveryAnnouncement := do
  let flags ← Parser.getByte (some a.flags)
  let a := { a with flags }
  let _ ← Parser.getByte (some 0)
  let _ ← Parser.getByte (some 0)
  if flags &&& beaconContainsEid ≠ 0 then do
    let eid ← BundleString.readWithin r
    readServiceBlock r { a with canonicalEid := EID.ofString eid }
  else readServiceBlock r a

/-- `std::string(eid)`, of an array: the bytes in front of the first zero. -/
def cString (eid : Bytes) : Parser Exn Bytes :=
  if 0 ∈ eid then pure (eid.takeWhile (· ≠ 0)) else throw (.undefined "a read behind an array")

/-- The number that bytes stand for in the order of the machine. -/
def littleEndian (bs : Bytes) : ℕ := bs.foldr (fun b n => b.toNat + 256 * n) 0

/-- The case of `DTND_IPDISCOVERY`: ten bytes of other fields, and the length of the EID in the
order of the machine. -/
def readIpdiscovery (r : Resources) (a : DiscoveryAnnouncement) :
    Parser Exn DiscoveryAnnouncement := do
  let _ ← Parser.readBytes 10
  let eidLen ← Parser.readBytes 2
  let eid ← readArray r (littleEndian eidLen)
  let text ← cString eid
  pure { a with version := dtndIpdiscovery, canonicalEid := EID.ofString text }

/-- `operator>>(std::istream&, DiscoveryAnnouncement&)`. -/
def read (r : Resources) (a : DiscoveryAnnouncement) : Parser Exn DiscoveryAnnouncement := do
  let version ← if a.version = dtndIpdiscovery then pure dtndIpdiscovery
    else Parser.getByte (some 0xff)
  if version = discoVersion00 then readVersion00 r a
  else if version = discoVersion01 then readVersion01 r a
  else if version = dtndIpdiscovery then readIpdiscovery r a
  else throw (.invalidProtocol "The received data does not match the discovery protocol.")

/-! ### The format of announcements -/

/-- The first version behind its flags: a length, an EID, and services until the length is used up,
unless the flags say that there is nothing. -/
def IsVersion00 (r : Resources) (flags : UInt8) (m : Tape) : Prop :=
  flags = beaconShort ∨ ∃ length m₁ eid m₂ services m₃,
    SDNV.Counts m length m₁ ∧ BundleString.Spells r m₁ eid m₂ ∧
      (DiscoveryService.Described r).Many m₂ services m₃ ∧ services.length ≤ r.heap ∧
      DiscoveryService.RunsFor remains subtract
        (length.toUInt32.toInt32 - Int32.ofNat (BundleString.getLength eid)) services

/-- The services of the second version: as many as a number of 32 bits announces. -/
def IsServiceBlock (r : Resources) (flags : UInt8) (m : Tape) : Prop :=
  flags &&& beaconServiceBlock ≠ 0 → ∃ n m₁ services m₂, SDNV.Counts m n m₁ ∧
    n.toNat = services.length ∧ n.toNat < 2 ^ 32 ∧ services.length ≤ r.heap ∧
      (DiscoveryService.Described r).Many m₁ services m₂

/-- The second version behind its flags and two further bytes: an EID and services, as the flags
say. -/
def IsVersion01 (r : Resources) (flags : UInt8) (m : Tape) : Prop :=
  if flags &&& beaconContainsEid ≠ 0 then
    ∃ eid m₁, BundleString.Spells r m eid m₁ ∧ IsServiceBlock r flags m₁
  else IsServiceBlock r flags m

/-- An announcement of the other daemon: ten bytes, a length in two bytes, and as many bytes that
contain a zero. -/
def IsIpdiscovery (r : Resources) (m : Tape) : Prop :=
  ∃ fields m₁ eidLen m₂ eid m₃, fields.length = 10 ∧ m.Starts fields m₁ ∧
    eidLen.length = 2 ∧ m₁.Starts eidLen m₂ ∧ Held r (littleEndian eidLen) m₂ eid m₃ ∧ 0 ∈ eid

/-- **The format of the announcements**: what is received, in front of the given stale bytes. -/
def Announces (r : Resources) (received stale : Bytes) : Prop :=
  match received with
  | [] => False
  | version :: rest =>
      let (flags, m) := Tape.get 0 (rest, stale)
      if version = discoVersion00 then IsVersion00 r flags m
      else if version = discoVersion01 then IsVersion01 r flags ((m.get 0).2.get 0).2
      else if version = dtndIpdiscovery then IsIpdiscovery r (rest, stale)
      else False

theorem counts_eq_true {n : UInt64} {i : UInt32} : counts n i = true ↔ i.toNat < n.toNat := by
  rw [counts, decide_eq_true_eq, UInt64.lt_iff_toNat_lt, UInt32.toNat_toUInt64]

/-- The loop over an announced number of services runs for as many as there are. -/
theorem runsFor_counts (n : UInt64) (services : List DiscoveryService) (i : UInt32)
    (hi : i.toNat ≤ n.toNat) :
    DiscoveryService.RunsFor (counts n) advance i services ↔
      n.toNat = i.toNat + services.length ∧ n.toNat < 2 ^ 32 := by
  induction services generalizing i with
  | nil =>
      have hlt := i.toNat_lt
      rw [DiscoveryService.RunsFor, Bool.eq_false_iff, Ne, counts_eq_true, List.length_nil]
      omega
  | cons s ss ih =>
      have hlt := i.toNat_lt
      have hnext : (advance i s).toNat = (i.toNat + 1) % 2 ^ 32 := by
        rw [advance, UInt32.toNat_add]
        rfl
      rw [DiscoveryService.RunsFor, counts_eq_true, List.length_cons]
      constructor
      · rintro ⟨hi', hruns⟩
        have hle : (advance i s).toNat ≤ n.toNat := by
          rw [hnext]
          exact (Nat.mod_le _ _).trans hi'
        have h := (ih (advance i s) hle).1 hruns
        rw [hnext] at h
        omega
      · rintro ⟨hn, hlt'⟩
        have hmod : (advance i s).toNat = i.toNat + 1 := by
          rw [hnext]
          exact Nat.mod_eq_of_lt (by omega)
        refine ⟨by omega, (ih (advance i s) (by omega)).2 ?_⟩
        omega

theorem admits_readVersion00 (r : Resources) (a : DiscoveryAnnouncement) :
    Admits (readVersion00 r a) fun m =>
      IsVersion00 r (m.get a.flags).1 (m.get a.flags).2 := by
  refine Parser.admits_getByte_bind a.flags fun flags => (Parser.admits_ite
    (c := flags = beaconShort) (fun _ => Parser.admits_pure _) fun _ =>
      SDNV.recognises_read.bind_admits fun beaconLen =>
        (BundleString.recognises_readWithin r).bind_admits fun eid =>
          (DiscoveryService.recognises_readWhile remains subtract r r.heap _).bind_admits
            fun services => Parser.admits_pure _).congr fun m => ?_
  split_ifs with hshort
  · exact iff_of_true trivial (Or.inl hshort)
  · rw [IsVersion00, or_iff_right hshort]
    constructor
    · rintro ⟨length, m₁, hlength, eid, m₂, heid, services, m₃, ⟨hheap, hruns, hmany⟩, -⟩
      exact ⟨length, m₁, eid, m₂, services, m₃, hlength, heid, hmany, hheap, hruns⟩
    · rintro ⟨length, m₁, eid, m₂, services, m₃, hlength, heid, hmany, hheap, hruns⟩
      exact ⟨length, m₁, hlength, eid, m₂, heid, services, m₃, ⟨hheap, hruns, hmany⟩, trivial⟩

theorem admits_readServiceBlock (r : Resources) (a : DiscoveryAnnouncement) :
    Admits (readServiceBlock r a) (IsServiceBlock r a.flags) := by
  refine (Parser.admits_ite (c := a.flags &&& beaconServiceBlock ≠ 0)
    (fun _ => SDNV.recognises_read.bind_admits fun numServices =>
      (DiscoveryService.recognises_readWhile (counts numServices) advance r r.heap 0).bind_admits
        fun services => Parser.admits_pure _) fun _ => Parser.admits_pure _).congr fun m => ?_
  split_ifs with hservices
  · rw [IsServiceBlock, imp_iff_right hservices]
    constructor
    · rintro ⟨n, m₁, hn, services, m₂, ⟨hheap, hruns, hmany⟩, -⟩
      obtain ⟨hcount, hlt⟩ := (runsFor_counts n services 0 (Nat.zero_le _)).1 hruns
      exact ⟨n, m₁, services, m₂, hn, hcount.trans (Nat.zero_add _), hlt, hheap, hmany⟩
    · rintro ⟨n, m₁, services, m₂, hn, hcount, hlt, hheap, hmany⟩
      have hruns := (runsFor_counts n services 0 (Nat.zero_le _)).2
        ⟨hcount.trans (Nat.zero_add _).symm, hlt⟩
      exact ⟨n, m₁, hn, services, m₂, ⟨hheap, hruns, hmany⟩, trivial⟩
  · exact iff_of_true trivial fun h => absurd h hservices

theorem admits_readVersion01 (r : Resources) (a : DiscoveryAnnouncement) :
    Admits (readVersion01 r a) fun m =>
      IsVersion01 r (m.get a.flags).1 (((m.get a.flags).2.get 0).2.get 0).2 :=
  Parser.admits_getByte_bind a.flags fun flags => Parser.admits_getByte_bind 0 fun _ =>
    Parser.admits_getByte_bind 0 fun _ => Parser.admits_ite
      (fun _ => (BundleString.recognises_readWithin r).bind_admits fun eid =>
        admits_readServiceBlock r { a with flags, canonicalEid := EID.ofString eid })
      fun _ => admits_readServiceBlock r { a with flags }

theorem admits_readIpdiscovery (r : Resources) (a : DiscoveryAnnouncement) :
    Admits (readIpdiscovery r a) (IsIpdiscovery r) := by
  have hcString (eid : Bytes) : Recognises (cString eid) fun m text m' =>
      if 0 ∈ eid then text = eid.takeWhile (· ≠ 0) ∧ m' = m else False :=
    Parser.recognises_ite (fun _ => recognises_pure _) fun _ => recognises_throw _
  refine ((Parser.recognises_readBytes 10).bind_admits fun fields =>
    (Parser.recognises_readBytes 2).bind_admits fun eidLen =>
      (recognises_readArray r (littleEndian eidLen)).bind_admits fun eid =>
        (hcString eid).bind_admits fun text => Parser.admits_pure _).congr fun m => ?_
  constructor
  · rintro ⟨fields, m₁, ⟨hfields, hm₁⟩, eidLen, m₂, ⟨heidLen, hm₂⟩, eid, m₃, heid, text, m₄,
      hzero, -⟩
    split_ifs at hzero with hmem
    exact ⟨fields, m₁, eidLen, m₂, eid, m₃, hfields, hm₁, heidLen, hm₂, heid, hmem⟩
  · rintro ⟨fields, m₁, eidLen, m₂, eid, m₃, hfields, hm₁, heidLen, hm₂, heid, hmem⟩
    refine ⟨fields, m₁, ⟨hfields, hm₁⟩, eidLen, m₂, ⟨heidLen, hm₂⟩, eid, m₃, heid,
      eid.takeWhile (· ≠ 0), m₃, ?_, trivial⟩
    rw [if_pos hmem]
    exact ⟨rfl, rfl⟩

/-- **The reader accepts exactly the announcements of the format.** -/
theorem accepts_iff (r : Resources) (received stale : Bytes) :
    (∃ a s', (read r create).run ⟨received, false, false, stale⟩ = (.ok a, s')) ↔
      Announces r received stale := by
  have hread : Admits (read r create) _ :=
    Parser.admits_getByte_bind 0xff fun version => Parser.admits_ite (c := version = discoVersion00)
      (fun _ => admits_readVersion00 r create) fun _ =>
        Parser.admits_ite (c := version = discoVersion01) (fun _ => admits_readVersion01 r create)
          fun _ => Parser.admits_ite (c := version = dtndIpdiscovery)
            (fun _ => admits_readIpdiscovery r create) fun _ => Parser.admits_throw _
  rw [hread ⟨received, false, false, stale⟩ (Or.inl rfl)]
  cases received with
  | nil => exact Iff.rfl
  | cons version rest => exact Iff.rfl

end DiscoveryAnnouncement

end IbrDtn
