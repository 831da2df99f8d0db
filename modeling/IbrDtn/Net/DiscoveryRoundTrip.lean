import IbrDtn.Data.EidText
import IbrDtn.Net.DiscoveryAnnouncement

/-!
# The round trip of discovery announcements

`operator<<` of `daemon/src/net/DiscoveryAnnouncement.cpp` writes a beacon, and `operator>>` reads
it into an announcement of the same version.  Each writes or reads the optional parts under
conditions of its own.  This file says for which announcements a beacon gives back what it was made
from.

With `flags && BIT`, the writer asks for any flag where the reader asks for the bit, so it writes an
EID and services where only one of them is announced.  The reader converts the sequence number and
then forgets it.  The length of the EID is written in the order of the network to a daemon that
reads it in the order of the machine, and that needs a zero behind the EID.

## Main definitions

* `Beacon` : an announcement with its sequence number.
* `Beacon.write`, `Beacon.read` : `operator<<` and `operator>>`.
* `Beacon.Returns` : the condition.

## Main results

* `DiscoveryService.reads_readWhile_iff` : which services are read back.
* `Beacon.decodes_iff` : which beacons are.
-/

namespace IbrDtn

open Parser (reads_getByte reads_pure reads_pure_iff)

namespace BundleString

variable {r : Resources} {t : Bytes}

/-- The string is read back if it fits the stack. -/
theorem reads_readWithin (ht : t.length < 2 ^ 63) (hfits : t.length ≤ r.stack) :
    (readWithin r).Reads (write t) t := by
  refine (SDNV.reads_read _).bind ?_
  rw [EID.toNat_ofNat_of_lt (by omega)]
  split_ifs with hlen
  · rw [readArray, if_pos hfits]
    exact Parser.reads_readBytes t
  · obtain rfl : t = [] := List.length_eq_zero_iff.1 (by omega)
    exact reads_pure []

/-- Else the stack overflows. -/
theorem throws_readWithin (ht : t.length < 2 ^ 63) (hfits : ¬ t.length ≤ r.stack) :
    (readWithin r).Throws (SDNV.write (UInt64.ofNat t.length))
      (.undefined "an array beyond the stack") := by
  rw [readWithin, ← List.append_nil (SDNV.write _)]
  refine (SDNV.reads_read _).bind_throws ?_
  rw [EID.toNat_ofNat_of_lt (by omega), if_pos (by omega), readArray, if_neg hfits]
  exact Parser.throws_throw _

theorem readWithin_bind_iff (ht : t.length < 2 ^ 63) {β : Type} {f : Bytes → Parser Exn β}
    {cs : Bytes} {b : β} : (readWithin r >>= f).Reads (write t ++ cs) b ↔
      t.length ≤ r.stack ∧ (f t).Reads cs b := by
  by_cases hfits : t.length ≤ r.stack
  · rw [(reads_readWithin ht hfits).bind_iff, and_iff_right hfits]
  · refine iff_of_false ?_ fun h => hfits h.1
    rw [write, List.append_assoc]
    exact (throws_readWithin ht hfits).not_reads

end BundleString

namespace DiscoveryService

variable {r : Resources}

/-- `operator<<(std::ostream&, const DiscoveryService&)`. -/
def write (s : DiscoveryService) : Bytes :=
  BundleString.write s.name ++ BundleString.write s.parameters

/-- The strings have a length that a `std::string` has. -/
def Sized (s : DiscoveryService) : Prop :=
  s.name.length < 2 ^ 63 ∧ s.parameters.length < 2 ^ 63

/-- The strings fit the stack. -/
def Fits (r : Resources) (s : DiscoveryService) : Prop :=
  s.name.length ≤ r.stack ∧ s.parameters.length ≤ r.stack

instance (s : DiscoveryService) : Decidable s.Sized := inferInstanceAs (Decidable (_ ∧ _))

instance (r : Resources) (s : DiscoveryService) : Decidable (s.Fits r) :=
  inferInstanceAs (Decidable (_ ∧ _))

theorem read_bind_iff {s : DiscoveryService} (hs : s.Sized) {β : Type}
    {f : DiscoveryService → Parser Exn β} {cs : Bytes} {b : β} :
    (read r >>= f).Reads (s.write ++ cs) b ↔ s.Fits r ∧ (f s).Reads cs b := by
  rw [read, bind_assoc, write, List.append_assoc, BundleString.readWithin_bind_iff hs.1]
  simp only [bind_assoc]
  rw [BundleString.readWithin_bind_iff hs.2, pure_bind, ← and_assoc]
  rfl

variable {σ : Type} {again : σ → Bool} {step : σ → DiscoveryService → σ}

/-- **Services are read back** if the loop runs for them, and there is room for them. -/
theorem reads_readWhile_iff {ss : List DiscoveryService} (hss : ∀ s ∈ ss, s.Sized) {room : ℕ}
    {x : σ} : (readWhile again step r room x).Reads (ss.flatMap write) ss ↔
      RunsFor again step x ss ∧ ss.length ≤ room ∧ ∀ s ∈ ss, s.Fits r := by
  have hsound (h : (readWhile again step r room x).Reads (ss.flatMap write) ss) :
      ss.length ≤ room ∧ RunsFor again step x ss :=
    ((recognises_readWhile again step r room x).sound (Or.inl rfl) (h [] [])).imp_right And.left
  have hiff : RunsFor again step x ss → ss.length ≤ room →
      ((readWhile again step r room x).Reads (ss.flatMap write) ss ↔ ∀ s ∈ ss, s.Fits r) := by
    clear hsound
    induction ss generalizing room x with
    | nil =>
        intro hruns _
        refine iff_of_true ?_ fun s hs => absurd hs List.not_mem_nil
        cases room <;> rw [readWhile, show again x = false from hruns] <;> exact reads_pure []
    | cons s ss ih =>
        rintro ⟨hagain, hruns⟩ hlen
        obtain ⟨room, rfl⟩ := Nat.exists_eq_add_one_of_ne_zero (show room ≠ 0 by
          rintro rfl
          exact absurd hlen (Nat.not_succ_le_zero _))
        rw [List.forall_mem_cons] at hss
        rw [readWhile, if_pos hagain, List.flatMap_cons, read_bind_iff hss.1, List.forall_mem_cons,
          ← ih hss.2 hruns (Nat.le_of_succ_le_succ hlen),
          Parser.reads_bind_pure_iff (g := List.tail) fun _ => rfl]
        exact and_congr_right fun _ => and_iff_left rfl
  constructor
  · intro h
    obtain ⟨hlen, hruns⟩ := hsound h
    exact ⟨hruns, hlen, (hiff hruns hlen).1 h⟩
  · rintro ⟨hruns, hlen, hfits⟩
    exact (hiff hruns hlen).2 hfits

/-- The lengths of the services, from each one on, add up to a positive number of 32 bits. -/
def Adds : List DiscoveryService → Prop
  | [] => True
  | s :: ss => 0 < Int32.ofNat ((s :: ss).map getLength).sum ∧ Adds ss

instance decidableAdds : ∀ ss, Decidable (Adds ss)
  | [] => inferInstanceAs (Decidable True)
  | _ :: ss => @instDecidableAnd _ _ _ (decidableAdds ss)

/-- **The loop over the length of a beacon** runs for the services if their lengths add up. -/
theorem runsFor_remains_iff (ss : List DiscoveryService) :
    RunsFor DiscoveryAnnouncement.remains DiscoveryAnnouncement.subtract
      (Int32.ofNat (ss.map getLength).sum) ss ↔ Adds ss := by
  induction ss with
  | nil =>
      have hdone : DiscoveryAnnouncement.remains (Int32.ofNat 0) = false := by decide
      exact iff_of_true hdone trivial
  | cons s ss ih =>
      have hrest : DiscoveryAnnouncement.subtract (Int32.ofNat ((s :: ss).map getLength).sum) s =
          Int32.ofNat (ss.map getLength).sum := by
        rw [DiscoveryAnnouncement.subtract, List.map_cons, List.sum_cons, Int32.ofNat_add]
        grind
      rw [RunsFor, hrest, ih, Adds, DiscoveryAnnouncement.remains, decide_eq_true_eq]

end DiscoveryService

/-! ### Other bytes for the same services -/

/-- The bytes are those that are written, or one that is above 127 comes where they part. -/
def Diverges (bs written : Bytes) : Prop :=
  bs = written ∨ ∃ common b rest rest', 0x80 ≤ b ∧ bs = common ++ b :: rest ∧
    written = common ++ rest'

namespace Diverges

variable {bs cs written written' : Bytes}

theorem append (h : Diverges bs written) (h' : Diverges cs written') :
    Diverges (bs ++ cs) (written ++ written') := by
  rcases h with rfl | ⟨common, b, rest, rest', hb, rfl, rfl⟩
  · rcases h' with rfl | ⟨common, b, rest, rest', hb, rfl, rfl⟩
    · exact .inl rfl
    · exact .inr ⟨bs ++ common, b, rest, rest', hb, (List.append_assoc _ _ _).symm,
        (List.append_assoc _ _ _).symm⟩
  · exact .inr ⟨common, b, rest ++ cs, rest' ++ written', hb, List.append_assoc _ _ _,
      List.append_assoc _ _ _⟩

/-- Bytes that begin with a high one may be anything. -/
theorem of_head {b : UInt8} (hb : 0x80 ≤ b) (rest written : Bytes) : Diverges (b :: rest) written :=
  .inr ⟨[], b, rest, written, hb, rfl, rfl⟩

/-- **What is written is not read again behind other bytes below 128.** -/
theorem not_of_append {shift : Bytes} (hne : shift ≠ []) (hlow : ∀ b ∈ shift, ¬ 0x80 ≤ b) :
    ¬ Diverges (shift ++ written) written := by
  rintro (heq | ⟨common, b, rest, rest', hb, heq, rfl⟩)
  · have hlen := congrArg List.length heq
    rw [List.length_append] at hlen
    exact hne (List.length_eq_zero_iff.1 (by omega))
  · -- Every byte up to the one above 127 is one of those in front.
    have hpos : 0 < shift.length := List.length_pos_iff.2 hne
    have hall (i : ℕ) (hi : i ≤ common.length) (c : UInt8)
        (hc : (common ++ b :: rest)[i]? = some c) : c ∈ shift := by
      induction i using Nat.strong_induction_on with
      | _ i ih =>
          rcases Nat.lt_or_ge i shift.length with hlt | hge
          · rw [← heq, List.getElem?_append_left hlt] at hc
            exact List.mem_of_getElem? hc
          · rw [← heq, List.getElem?_append_right hge,
              List.getElem?_append_left (by omega)] at hc
            refine ih (i - shift.length) (by omega) (by omega) ?_
            rw [List.getElem?_append_left (by omega)]
            exact hc
    refine hlow b (hall common.length le_rfl b ?_) hb
    rw [List.getElem?_append_right le_rfl, Nat.sub_self]
    rfl

end Diverges

theorem SDNV.and_eq_zero_iff (b : UInt8) : b &&& 0x80 = 0 ↔ ¬ 0x80 ≤ b := by
  have hall : ∀ i : Fin 256, UInt8.ofNat i &&& 0x80 = 0 ↔ ¬ 0x80 ≤ UInt8.ofNat i := by
    decide +kernel
  have hbyte := hall ⟨b.toNat, b.toNat_lt⟩
  rwa [UInt8.ofNat_toNat] at hbyte

/-- A number of one byte. -/
theorem SDNV.write_of_lt {b : UInt8} {v : UInt64} (hb : ¬ 0x80 ≤ b) (h : decode [b] = .ok v) :
    v = b.toUInt64 ∧ write v = [b] := by
  have hall : ∀ i : Fin 128, decode [UInt8.ofNat i] = .ok (UInt8.ofNat i).toUInt64 ∧
      write (UInt8.ofNat i).toUInt64 = [UInt8.ofNat i] := by decide +kernel
  have hlt : b.toNat < 128 := by
    rw [UInt8.le_iff_toNat_le] at hb
    exact Nat.not_le.1 hb
  have hbyte := hall ⟨b.toNat, hlt⟩
  rw [UInt8.ofNat_toNat] at hbyte
  obtain rfl : b.toUInt64 = v := Except.ok.inj (hbyte.1.symm.trans h)
  exact ⟨rfl, hbyte.2⟩

/-- A string that is found. -/
theorem BundleString.Spells.diverges {r : Resources} {m m' : Tape} {t : Bytes}
    (h : Spells r m t m') (hne : m'.1 ≠ []) :
    ∃ bs, m.1 = bs ++ m'.1 ∧ Diverges bs (write t) := by
  obtain ⟨v, m₁, ⟨n, rfl, hcount⟩, hrest⟩ := h
  have hdata : m₁.1 = t ++ m'.1 ∧ (n.value.toNat < 128 → t.length = n.value.toNat) := by
    split_ifs at hrest with hv
    · exact ⟨hrest.2.2.eq_append hne, fun _ => hrest.2.1⟩
    · obtain ⟨rfl, rfl⟩ := hrest
      refine ⟨rfl, fun hlt => ?_⟩
      rw [List.length_nil]
      omega
  have hm₁ : m₁.1 ≠ [] := by
    rw [hdata.1]
    exact List.append_ne_nil_of_right_ne_nil t hne
  refine ⟨n.bytes ++ t, ?_, ?_⟩
  · rw [hcount.eq_append hm₁, hdata.1, List.append_assoc]
  · have hterminated := n.terminated
    have hdecoded := n.decoded
    have hlength := hdata.2
    generalize n.bytes = bs at hterminated hdecoded ⊢
    generalize n.value = v at hdecoded hlength
    cases bs with
    | nil => exact hterminated.elim
    | cons b bs =>
        by_cases hb : 0x80 ≤ b
        · exact .of_head hb _ _
        · rw [SDNV.terminated_cons, if_pos ((SDNV.and_eq_zero_iff b).2 hb)] at hterminated
          subst hterminated
          obtain ⟨rfl, hwrite⟩ := SDNV.write_of_lt hb hdecoded
          have hlt : b.toNat < 128 := by
            rw [UInt8.le_iff_toNat_le] at hb
            exact Nat.not_le.1 hb
          rw [UInt8.toNat_toUInt64] at hlength
          refine .inl ?_
          rw [write, hlength hlt, UInt64.ofNat_uInt8ToNat, hwrite]

/-- Services that are found. -/
theorem DiscoveryService.diverges_of_many {r : Resources} {m m' : Tape}
    {ss : List DiscoveryService} (h : (Described r).Many m ss m') (hne : m'.1 ≠ []) :
    ∃ bs, m.1 = bs ++ m'.1 ∧ Diverges bs (ss.flatMap write) := by
  induction h with
  | nil m => exact ⟨[], rfl, .inl rfl⟩
  | cons hs _ ih =>
      obtain ⟨rest, hrest, hdiverges⟩ := ih hne
      obtain ⟨m₁, hname, hparameters⟩ := hs
      obtain ⟨bs, hbs, hbs'⟩ := hparameters.diverges (by
        rw [hrest]
        exact List.append_ne_nil_of_right_ne_nil rest hne)
      obtain ⟨cs, hcs, hcs'⟩ := hname.diverges (by
        rw [hbs, hrest]
        exact List.append_ne_nil_of_right_ne_nil bs (List.append_ne_nil_of_right_ne_nil rest hne))
      refine ⟨cs ++ bs ++ rest, ?_, ?_⟩
      · rw [hcs, hbs, hrest, List.append_assoc, List.append_assoc]
      · exact (hcs'.append hbs').append hdiverges

/-! ### Announcements -/

/-- `class DiscoveryAnnouncement`, with its sequence number. -/
structure Beacon extends DiscoveryAnnouncement where
  sequencenumber : UInt16
deriving DecidableEq, Repr

/-- Two bytes in the order of the network. -/
def networkOrder (n : ℕ) : Bytes := [UInt8.ofNat (n / 256), UInt8.ofNat n]

namespace Beacon

open DiscoveryAnnouncement

/-- `operator>>(std::istream&, DiscoveryAnnouncement&)`, which leaves the sequence number alone. -/
def read (r : Resources) (a : Beacon) : Parser Exn Beacon := do
  let announcement ← DiscoveryAnnouncement.read r a.toDiscoveryAnnouncement
  pure { a with toDiscoveryAnnouncement := announcement }

/-- The EID as a `BundleString`. -/
def eidString (b : Beacon) : Bytes := BundleString.write b.canonicalEid.getString

/-- The length that the first version announces. -/
def beaconLen (b : Beacon) : ℕ :=
  BundleString.getLength b.canonicalEid.getString +
    (b.services.map DiscoveryService.getLength).sum

/-- The flags of the second version. -/
def contents (b : Beacon) : UInt8 :=
  (if b.canonicalEid ≠ EID.none then beaconContainsEid else 0) |||
    if b.services ≠ [] then beaconServiceBlock else 0

/-- What follows the sequence number: both conditions ask for any flag. -/
def optionalParts (b : Beacon) : Bytes :=
  (if b.contents ≠ 0 ∧ beaconContainsEid ≠ 0 then b.eidString else []) ++
    if b.contents ≠ 0 ∧ beaconServiceBlock ≠ 0 then
      SDNV.write (UInt64.ofNat b.services.length) ++ b.services.flatMap DiscoveryService.write
    else []

/-- The zeros behind the EID for the other daemon. -/
def addZeros (b : Beacon) : ℕ := (4 - b.canonicalEid.getString.length % 4) % 4

/-- `operator<<(std::ostream&, const DiscoveryAnnouncement&)`. -/
def write (b : Beacon) : Bytes :=
  let eid := b.canonicalEid.getString
  if b.version = discoVersion00 then
    if b.services = [] then [discoVersion00, beaconShort ||| b.flags]
    else discoVersion00 :: b.flags :: (SDNV.write (UInt64.ofNat b.beaconLen) ++
      (b.eidString ++ b.services.flatMap DiscoveryService.write))
  else if b.version = discoVersion01 then
    discoVersion01 :: b.contents :: (networkOrder b.sequencenumber.toNat ++ b.optionalParts)
  else if b.version = dtndIpdiscovery then
    [1, 10] ++ networkOrder (12 + eid.length + b.addZeros) ++ [0, 0, 0, 0] ++ networkOrder 4556 ++
      networkOrder eid.length ++ eid ++ List.replicate b.addZeros 0
  else []

/-! ### The condition -/

/-- A new announcement of one of the versions, with strings of lengths that a `std::string` has. -/
structure New (b : Beacon) : Prop where
  version : b.version = discoVersion00 ∨ b.version = discoVersion01 ∨ b.version = dtndIpdiscovery
  flags : b.flags = 0
  eid : b.canonicalEid.getString.length < 2 ^ 63
  services : ∀ s ∈ b.services, s.Sized

/-- **The beacon gives back what it was made from**, and nothing else is consumed, when it is read
into the announcement `a`. -/
def Restored (r : Resources) (b a : Beacon) : Prop :=
  ∃ b', (a.read r).Reads b.write b' ∧ b'.canonicalEid = b.canonicalEid ∧
    b'.services = b.services ∧
      (b.version = discoVersion01 → b'.sequencenumber = b.sequencenumber)

/-- The EID is one that its text denotes, and there is room for the strings and the services. -/
def Carried (r : Resources) (b : Beacon) : Prop :=
  b.canonicalEid.Readable ∧ b.canonicalEid.getString.length ≤ r.stack ∧
    b.services.length ≤ r.heap ∧ ∀ s ∈ b.services, s.Fits r

/-- The condition. A beacon of the first version without services is short, and stands for no EID
and for the services that `a` has; with services, their lengths add up. One of the second version
carries an EID and services, or neither of them, and a sequence number that `a` has. -/
def Returns (r : Resources) (b a : Beacon) : Prop :=
  if b.version = discoVersion00 then
    if b.services = [] then b.canonicalEid = EID.none ∧ a.services = []
    else b.Carried r ∧ DiscoveryService.Adds b.services
  else if b.version = discoVersion01 then
    a.sequencenumber = b.sequencenumber ∧
      if b.canonicalEid = EID.none then
        b.services = [] ∧ a.canonicalEid = EID.none ∧ a.services = []
      else b.services ≠ [] ∧ b.Carried r ∧ b.services.length < 2 ^ 32
  else False

instance (r : Resources) (b : Beacon) : Decidable (b.Carried r) :=
  inferInstanceAs (Decidable (_ ∧ _))

instance (r : Resources) (b a : Beacon) : Decidable (b.Returns r a) := by
  unfold Returns
  infer_instance

variable {r : Resources} {a b : Beacon}

/-- What the reader of an announcement gives back. -/
theorem restored_iff_read : b.Restored r a ↔
    (∃ d, (DiscoveryAnnouncement.read r a.toDiscoveryAnnouncement).Reads b.write d ∧
      d.canonicalEid = b.canonicalEid ∧ d.services = b.services) ∧
        (b.version = discoVersion01 → a.sequencenumber = b.sequencenumber) := by
  have hread (b' : Beacon) : (a.read r).Reads b.write b' ↔
      (DiscoveryAnnouncement.read r a.toDiscoveryAnnouncement).Reads b.write
          b'.toDiscoveryAnnouncement ∧
        { a with toDiscoveryAnnouncement := b'.toDiscoveryAnnouncement } = b' :=
    Parser.reads_bind_pure_iff (g := Beacon.toDiscoveryAnnouncement) fun _ => rfl
  constructor
  · rintro ⟨b', hb', heid, hservices, hsn⟩
    obtain ⟨hreads, hsame⟩ := (hread b').1 hb'
    refine ⟨⟨_, hreads, heid, hservices⟩, fun hversion => ?_⟩
    rw [← hsn hversion, ← hsame]
  · rintro ⟨⟨d, hreads, heid, hservices⟩, hsn⟩
    exact ⟨{ a with toDiscoveryAnnouncement := d }, (hread _).2 ⟨hreads, rfl⟩, heid, hservices, hsn⟩

/-- The first byte selects the case. -/
theorem reads_read_iff {version : UInt8} (hne : version ≠ dtndIpdiscovery)
    {a d : DiscoveryAnnouncement} (ha : a.version = version) {bs : Bytes} :
    (DiscoveryAnnouncement.read r a).Reads (version :: bs) d ↔
      (if version = discoVersion00 then readVersion00 r a
        else if version = discoVersion01 then readVersion01 r a
        else if version = dtndIpdiscovery then readIpdiscovery r a
        else throw (.invalidProtocol
          "The received data does not match the discovery protocol.")).Reads bs d := by
  rw [DiscoveryAnnouncement.read, if_neg (ha ▸ hne)]
  exact (reads_getByte _ _).bind_cons_iff

theorem readString_bind_iff (ht : b.canonicalEid.getString.length < 2 ^ 63) {β : Type}
    {f : Bytes → Parser Exn β} {cs : Bytes} {d : β} :
    (BundleString.readWithin r >>= f).Reads (b.eidString ++ cs) d ↔
      b.canonicalEid.getString.length ≤ r.stack ∧ (f b.canonicalEid.getString).Reads cs d :=
  BundleString.readWithin_bind_iff ht

/-- **The first version.** -/
theorem restored_version00_iff (hb : b.New) (hversion : b.version = discoVersion00)
    (ha : a.version = b.version) : b.Restored r a ↔ b.Returns r a := by
  have hne : discoVersion00 ≠ dtndIpdiscovery := by decide
  have hsn : b.version = discoVersion01 → a.sequencenumber = b.sequencenumber := fun h =>
    absurd (hversion.symm.trans h) (by decide)
  rw [restored_iff_read, and_iff_left hsn, write, Returns]
  rw [if_pos hversion, if_pos hversion]
  split_ifs with hservices
  · have hreads (d : DiscoveryAnnouncement) :
        (DiscoveryAnnouncement.read r a.toDiscoveryAnnouncement).Reads
            [discoVersion00, beaconShort ||| b.flags] d ↔
          { a.toDiscoveryAnnouncement with flags := beaconShort, canonicalEid := EID.none } = d := by
      rw [hb.flags, reads_read_iff hne (ha.trans hversion), if_pos rfl, readVersion00]
      exact (reads_getByte _ _).bind_cons_iff.trans reads_pure_iff
    simp only [hreads]
    constructor
    · rintro ⟨d, rfl, heid, hsame⟩
      exact ⟨heid.symm, hsame.trans hservices⟩
    · rintro ⟨heid, hsame⟩
      exact ⟨_, rfl, heid.symm, hsame.trans hservices.symm⟩
  · have hremain : (UInt64.ofNat b.beaconLen).toUInt32.toInt32 -
        Int32.ofNat (BundleString.getLength b.canonicalEid.getString) =
          Int32.ofNat (b.services.map DiscoveryService.getLength).sum := by
      rw [UInt64.toUInt32_ofNat', beaconLen]
      change Int32.ofNat _ - _ = _
      rw [Int32.ofNat_add]
      grind
    have hreads (d : DiscoveryAnnouncement) (hd : d.services = b.services) :
        (DiscoveryAnnouncement.read r a.toDiscoveryAnnouncement).Reads (discoVersion00 :: b.flags ::
            (SDNV.write (UInt64.ofNat b.beaconLen) ++
              (b.eidString ++ b.services.flatMap DiscoveryService.write))) d ↔
          b.canonicalEid.getString.length ≤ r.stack ∧
            (DiscoveryService.Adds b.services ∧ b.services.length ≤ r.heap ∧
              ∀ s ∈ b.services, s.Fits r) ∧
            { a.toDiscoveryAnnouncement with
              flags := 0
              canonicalEid := EID.ofString b.canonicalEid.getString
              services := b.services } = d := by
      rw [hb.flags, reads_read_iff hne (ha.trans hversion), if_pos rfl, readVersion00,
        (reads_getByte _ _).bind_cons_iff]
      dsimp only
      rw [if_neg (by decide), (SDNV.reads_read _).bind_iff, readString_bind_iff hb.eid, hremain,
        Parser.reads_bind_pure_iff (g := DiscoveryAnnouncement.services) fun _ => rfl, hd,
        DiscoveryService.reads_readWhile_iff hb.services, DiscoveryService.runsFor_remains_iff]
    constructor
    · rintro ⟨d, hd, heid, hsame⟩
      obtain ⟨htext, ⟨hadds, hroom, hfits⟩, rfl⟩ := (hreads d hsame).1 hd
      exact ⟨⟨heid, htext, hroom, hfits⟩, hadds⟩
    · rintro ⟨⟨heid, htext, hroom, hfits⟩, hadds⟩
      have hd := (hreads ⟨a.version, 0, _, b.services⟩ rfl).2
        ⟨htext, ⟨hadds, hroom, hfits⟩, rfl⟩
      exact ⟨_, hd, heid, rfl⟩

/-- The second version up to its optional parts. -/
theorem reads_version01_iff {a d : DiscoveryAnnouncement} (ha : a.version = discoVersion01)
    (flags : UInt8) (n : ℕ) (bs : Bytes) : (DiscoveryAnnouncement.read r a).Reads
      (discoVersion01 :: flags :: (networkOrder n ++ bs)) d ↔
        (if flags &&& beaconContainsEid ≠ 0 then do
            let eid ← BundleString.readWithin r
            readServiceBlock r { a with flags, canonicalEid := EID.ofString eid }
          else readServiceBlock r { a with flags }).Reads bs d := by
  rw [reads_read_iff (by decide) ha, if_neg (by decide), if_pos rfl, readVersion01,
    (reads_getByte _ _).bind_cons_iff]
  exact (reads_getByte _ _).bind_cons_iff.trans (reads_getByte _ _).bind_cons_iff

/-- The services of the second version are read back. -/
theorem reads_readServiceBlock_iff {a d : DiscoveryAnnouncement}
    (hflags : a.flags &&& beaconServiceBlock ≠ 0) {ss : List DiscoveryService}
    (hss : ∀ s ∈ ss, s.Sized) (hd : d.services = ss) : (readServiceBlock r a).Reads
      (SDNV.write (UInt64.ofNat ss.length) ++ ss.flatMap DiscoveryService.write) d ↔
        (ss.length < 2 ^ 32 ∧ ss.length ≤ r.heap ∧ ∀ s ∈ ss, s.Fits r) ∧
          { a with services := ss } = d := by
  have hcount : (UInt64.ofNat ss.length).toNat = (0 : UInt32).toNat + ss.length ∧
      (UInt64.ofNat ss.length).toNat < 2 ^ 32 ∧ ss.length ≤ r.heap ↔
        ss.length < 2 ^ 32 ∧ ss.length ≤ r.heap := by
    have hmod : (UInt64.ofNat ss.length).toNat = ss.length % 2 ^ 64 := rfl
    have hzero : (0 : UInt32).toNat = 0 := rfl
    omega
  rw [readServiceBlock, if_pos hflags, (SDNV.reads_read _).bind_iff,
    Parser.reads_bind_pure_iff (g := DiscoveryAnnouncement.services) fun _ => rfl, hd,
    DiscoveryService.reads_readWhile_iff hss, runsFor_counts _ _ _ (Nat.zero_le _), ← and_assoc,
    and_assoc (a := _ = _), hcount, and_assoc (a := _ < _)]

/-- **An EID is not taken for services**: a beacon with services and without an EID is not read
back. -/
theorem not_reads_of_services {a d : DiscoveryAnnouncement}
    (hflags : a.flags &&& beaconServiceBlock ≠ 0) (hd : d.services = b.services) :
    ¬ (readServiceBlock r a).Reads (BundleString.write EID.none.getString ++
      (SDNV.write (UInt64.ofNat b.services.length) ++
        b.services.flatMap DiscoveryService.write)) d := by
  have htext : BundleString.write EID.none.getString =
      SDNV.write 8 ++ EID.none.getString := rfl
  rw [readServiceBlock, if_pos hflags, htext, List.append_assoc, (SDNV.reads_read _).bind_iff,
    Parser.reads_bind_pure_iff (g := DiscoveryAnnouncement.services) fun _ => rfl, hd]
  rintro ⟨h, -⟩
  obtain ⟨-, hruns, hmany⟩ := (DiscoveryService.recognises_readWhile (counts 8) advance r r.heap
    0).sound (Or.inl rfl) (h [1] [])
  -- There are as many services as the text has bytes, and so the number that follows is below 128.
  have hlength : b.services.length = 8 := by
    have hcount := ((runsFor_counts 8 b.services 0 (Nat.zero_le _)).1 hruns).1
    exact (hcount.trans (Nat.zero_add _)).symm
  obtain ⟨bs, hbs, hdiverges⟩ := DiscoveryService.diverges_of_many hmany (List.cons_ne_nil _ _)
  have hshift : bs = (EID.none.getString ++ SDNV.write 8) ++
      b.services.flatMap DiscoveryService.write := by
    have hbs : _ ++ [1] = bs ++ [1] := hbs
    rw [← List.append_cancel_right hbs, hlength, List.append_assoc]
    rfl
  have hlow : ((EID.none.getString ++ SDNV.write 8).all fun b => !decide (0x80 ≤ b)) = true := rfl
  rw [hshift] at hdiverges
  refine Diverges.not_of_append (List.cons_ne_nil _ _) (fun b hb => ?_) hdiverges
  simpa using List.all_eq_true.1 hlow b hb

/-- **The second version.** -/
theorem restored_version01_iff (hb : b.New) (hversion : b.version = discoVersion01)
    (ha : a.version = b.version) : b.Restored r a ↔ b.Returns r a := by
  have hne : ¬ b.version = discoVersion00 := by
    rw [hversion]
    decide
  rw [restored_iff_read, write, Returns, if_neg hne, if_neg hne, if_pos hversion, if_pos hversion,
    imp_iff_right hversion, and_comm]
  refine and_congr_right fun _ => ?_
  simp only [reads_version01_iff (ha.trans hversion)]
  by_cases heid : b.canonicalEid = EID.none <;> by_cases hservices : b.services = []
  · -- Neither of them is written, and neither is read.
    have hcontents : b.contents = 0 := by
      rw [contents, if_neg (not_not.2 heid), if_neg (not_not.2 hservices)]
      rfl
    have hreads (d : DiscoveryAnnouncement) :
        (readServiceBlock r { a.toDiscoveryAnnouncement with flags := 0 }).Reads [] d ↔
          { a.toDiscoveryAnnouncement with flags := 0 } = d := by
      rw [readServiceBlock, if_neg (show ¬ (0 : UInt8) &&& beaconServiceBlock ≠ 0 by decide)]
      exact reads_pure_iff
    rw [optionalParts, hcontents, if_pos heid, hservices]
    simp only [ne_eq, not_true, false_and, if_false, UInt8.zero_and, List.append_nil, hreads]
    constructor
    · rintro ⟨d, rfl, heid', hsame⟩
      exact ⟨trivial, heid'.trans heid, hsame⟩
    · rintro ⟨-, heid', hsame⟩
      exact ⟨_, rfl, heid'.trans heid.symm, hsame⟩
  · -- Both are written, and the services are read.
    have hcontents : b.contents = beaconServiceBlock := by
      rw [contents, if_neg (not_not.2 heid), if_pos hservices]
      rfl
    have hparts : b.optionalParts = BundleString.write EID.none.getString ++
        (SDNV.write (UInt64.ofNat b.services.length) ++
          b.services.flatMap DiscoveryService.write) := by
      rw [optionalParts, hcontents, if_pos (by decide), if_pos (by decide), eidString, heid]
    rw [if_pos heid, hcontents, hparts]
    refine iff_of_false ?_ fun h => hservices h.1
    rintro ⟨d, hd, -, hsame⟩
    rw [if_neg (by decide)] at hd
    have hblock : beaconServiceBlock &&& beaconServiceBlock ≠ 0 := by decide
    exact not_reads_of_services hblock hsame hd
  · -- Both are written, and the EID is read.
    have hcontents : b.contents = beaconContainsEid := by
      rw [contents, if_pos heid, if_neg (not_not.2 hservices)]
      rfl
    have hparts : b.optionalParts = b.eidString ++ SDNV.write 0 := by
      rw [optionalParts, hcontents, if_pos (by decide), if_pos (by decide), hservices]
      rfl
    rw [if_neg heid, hcontents, hparts]
    refine iff_of_false ?_ fun h => h.1 hservices
    rintro ⟨d, hd, -⟩
    have hblock : ¬ beaconContainsEid &&& beaconServiceBlock ≠ 0 := by decide
    rw [if_pos (by decide), readString_bind_iff hb.eid, readServiceBlock, if_neg hblock] at hd
    exact absurd (Parser.eq_nil_of_reads_pure hd.2) (by decide)
  · -- Both are written, and both are read.
    have hcontents : b.contents = beaconContainsEid ||| beaconServiceBlock := by
      rw [contents, if_pos heid, if_pos hservices]
    have hparts : b.optionalParts = b.eidString ++ (SDNV.write (UInt64.ofNat b.services.length) ++
        b.services.flatMap DiscoveryService.write) := by
      rw [optionalParts, hcontents, if_pos (by decide), if_pos (by decide)]
    have hblock : (beaconContainsEid ||| beaconServiceBlock) &&& beaconServiceBlock ≠ 0 := by
      decide
    rw [if_neg heid, hcontents, hparts, and_iff_right hservices, if_pos (by decide)]
    constructor
    · rintro ⟨d, hd, heid', hsame⟩
      rw [readString_bind_iff hb.eid,
        reads_readServiceBlock_iff hblock hb.services hsame] at hd
      obtain ⟨htext, ⟨hlt, hroom, hfits⟩, rfl⟩ := hd
      exact ⟨⟨heid', htext, hroom, hfits⟩, hlt⟩
    · rintro ⟨⟨heid', htext, hroom, hfits⟩, hlt⟩
      refine ⟨⟨a.version, beaconContainsEid ||| beaconServiceBlock,
        EID.ofString b.canonicalEid.getString, b.services⟩, ?_, heid', rfl⟩
      refine (readString_bind_iff hb.eid).2 ⟨htext, ?_⟩
      refine (reads_readServiceBlock_iff ?_ hb.services ?_).2 ⟨⟨hlt, hroom, hfits⟩, rfl⟩
      · exact hblock
      · rfl

theorem recognises_cString (eid : Bytes) : Parser.Recognises (cString eid) fun m text m' =>
    if 0 ∈ eid then text = eid.takeWhile (· ≠ 0) ∧ m' = m else False :=
  Parser.recognises_ite (fun _ => Parser.recognises_pure _) fun _ => Parser.recognises_throw _

/-- An array that is read whole from a beacon is the rest of the beacon. -/
theorem eq_of_held {n : ℕ} {bs eid : Bytes} {m : Tape} (h : Held r n (bs ++ [1], []) eid m)
    (hm : m = ([1], [])) : eid = bs ∧ bs.length = n := by
  subst hm
  obtain ⟨-, hlength, hstarts⟩ := h
  have heq : bs ++ [1] = eid ++ [1] := hstarts.eq_append (List.cons_ne_nil _ _)
  obtain rfl := List.append_cancel_right heq
  exact ⟨rfl, hlength⟩

/-- **The version of the other daemon** is never read back. -/
theorem not_restored_ipdiscovery (hversion : b.version = dtndIpdiscovery)
    (ha : a.version = b.version) : ¬ b.Restored r a := by
  rw [restored_iff_read, write, if_neg (by rw [hversion]; decide),
    if_neg (by rw [hversion]; decide), if_pos hversion]
  rintro ⟨⟨d, hd, heid, -⟩, -⟩
  have hfields : ([1, 10] ++ networkOrder (12 + b.canonicalEid.getString.length + b.addZeros) ++
      [0, 0, 0, 0] ++ networkOrder 4556 : Bytes).length = 10 := rfl
  generalize ([1, 10] ++ networkOrder (12 + b.canonicalEid.getString.length + b.addZeros) ++
      [0, 0, 0, 0] ++ networkOrder 4556 : Bytes) = fields at hd hfields
  rw [DiscoveryAnnouncement.read, if_pos (ha.trans hversion), pure_bind] at hd
  beta_reduce at hd
  rw [if_neg (by decide), if_neg (by decide), if_pos rfl, readIpdiscovery, List.append_assoc,
    List.append_assoc, ← hfields, (Parser.reads_readBytes fields).bind_iff] at hd
  have hlen : (networkOrder b.canonicalEid.getString.length).length = 2 := rfl
  rw [← hlen, (Parser.reads_readBytes _).bind_iff] at hd
  obtain ⟨eid, m₁, hheld, text, m₂, htext, rfl, hm⟩ :=
    ((recognises_readArray r _).bind fun eid => (recognises_cString eid).bind fun text =>
      Parser.recognises_pure _).sound (Or.inl rfl) (hd [1] [])
  split_ifs at htext with hzero
  obtain ⟨rfl, rfl⟩ := htext
  obtain ⟨rfl, hlength⟩ := eq_of_held hheld hm.symm
  -- The length is the same in both orders only if nothing is filled up.
  have hsame : b.addZeros = 0 := by
    have hswap : littleEndian (networkOrder b.canonicalEid.getString.length) =
        b.canonicalEid.getString.length / 256 % 256 +
          256 * (b.canonicalEid.getString.length % 256) := by
      rw [networkOrder, littleEndian, List.foldr_cons, List.foldr_cons, List.foldr_nil,
        UInt8.toNat_ofNat', UInt8.toNat_ofNat']
      rfl
    rw [hswap, List.length_append, List.length_replicate, addZeros] at hlength
    rw [addZeros]
    generalize b.canonicalEid.getString.length = n at hlength
    have hhigh : n / 256 % 256 = n / 256 := Nat.mod_eq_of_lt (by omega)
    omega
  rw [hsame, List.replicate_zero, List.append_nil] at hzero heid
  -- So the text contains the zero, and what is returned does not.
  have hmem : (0 : UInt8) ∈
      (EID.ofString (b.canonicalEid.getString.takeWhile (· ≠ 0))).getString := by
    rw [show EID.ofString (b.canonicalEid.getString.takeWhile (· ≠ 0)) = b.canonicalEid from heid]
    exact hzero
  rcases EID.getString_ofString (b.canonicalEid.getString.takeWhile (· ≠ 0)) with h | h
  · rw [h] at hmem
    have hmem := List.mem_takeWhile_imp (Utils.mem_of_mem_trim hmem)
    simp at hmem
  · rw [h] at hmem
    exact absurd hmem (by decide)

/-- **A beacon gives back what it was made from exactly under the condition.** -/
theorem decodes_iff (hb : b.New) (ha : a.version = b.version) :
    b.Restored r a ↔ b.Returns r a := by
  rcases hb.version with hversion | hversion | hversion
  · exact restored_version00_iff hb hversion ha
  · exact restored_version01_iff hb hversion ha
  · refine iff_of_false (not_restored_ipdiscovery hversion ha) ?_
    rw [Returns, if_neg (by rw [hversion]; decide), if_neg (by rw [hversion]; decide)]
    exact not_false

/-- The EID of a daemon. -/
def node : EID := ⟨ascii ['d', 't', 'n'], ascii ['/', '/', 'a']⟩

/-- A service of a daemon. -/
def tcpcl : DiscoveryService := ⟨ascii ['t', 'c', 'p', 'c', 'l'], ascii ['p', '=', '1', ';']⟩

/-- A new announcement, with the given number. -/
def sample (version : UInt8) (eid : EID) (services : List DiscoveryService)
    (sequencenumber : UInt16) : Beacon :=
  ⟨⟨version, 0, eid, services⟩, sequencenumber⟩

theorem sized_tcpcl : ∀ s ∈ [tcpcl], s.Sized := by
  intro s hs
  obtain rfl := List.mem_singleton.1 hs
  constructor <;> decide +kernel

theorem new_sample {version : UInt8} (h : version = discoVersion00 ∨ version = discoVersion01 ∨
    version = dtndIpdiscovery) {eid : EID} (heid : eid.getString.length < 2 ^ 63)
    {services : List DiscoveryService} (hservices : ∀ s ∈ services, s.Sized)
    (sequencenumber : UInt16) : (sample version eid services sequencenumber).New :=
  ⟨h, rfl, heid, hservices⟩

theorem length_node : node.getString.length < 2 ^ 63 := by decide +kernel

/-- A beacon of the second version with one service and the number zero. -/
theorem decodes_iff_sample : (sample discoVersion01 node [tcpcl] 0).Restored ⟨8192, 16⟩
    (sample discoVersion01 EID.none [] 0) := by
  have hnew := new_sample (.inr (.inl rfl)) length_node sized_tcpcl 0
  refine (decodes_iff hnew ?_).2 ?_
  · rfl
  · decide +kernel

/-- **What is not given back**: an EID without services, in both versions; services without an EID;
a sequence number; and anything of the third version. -/
theorem not_restored :
    (¬ (sample discoVersion00 node [] 0).Restored ⟨8192, 16⟩
          (sample discoVersion00 EID.none [] 0) ∧
        ¬ (sample discoVersion01 node [] 0).Restored ⟨8192, 16⟩
          (sample discoVersion01 EID.none [] 0)) ∧
      (¬ (sample discoVersion01 EID.none [tcpcl] 0).Restored ⟨8192, 16⟩
          (sample discoVersion01 EID.none [] 0) ∧
        ¬ (sample discoVersion01 node [tcpcl] 1).Restored ⟨8192, 16⟩
          (sample discoVersion01 EID.none [] 0)) ∧
      ¬ (sample dtndIpdiscovery node [] 0).Restored ⟨8192, 16⟩
        (sample dtndIpdiscovery EID.none [] 0) := by
  have hempty : ∀ s ∈ ([] : List DiscoveryService), s.Sized := fun s hs =>
    absurd hs List.not_mem_nil
  have hnone : EID.none.getString.length < 2 ^ 63 := by decide +kernel
  have hversion : discoVersion01 = discoVersion00 ∨ discoVersion01 = discoVersion01 ∨
    discoVersion01 = dtndIpdiscovery := .inr (.inl rfl)
  refine ⟨⟨?_, ?_⟩, ⟨?_, ?_⟩, ?_⟩
  · have hnew := new_sample (.inl rfl) length_node hempty 0
    refine fun h => absurd ((restored_version00_iff hnew rfl ?_).1 h) ?_
    · rfl
    · decide +kernel
  · have hnew := new_sample hversion length_node hempty 0
    refine fun h => absurd ((restored_version01_iff hnew rfl ?_).1 h) ?_
    · rfl
    · decide +kernel
  · have hnew := new_sample hversion hnone sized_tcpcl 0
    refine fun h => absurd ((restored_version01_iff hnew rfl ?_).1 h) ?_
    · rfl
    · decide +kernel
  · have hnew := new_sample hversion length_node sized_tcpcl 1
    refine fun h => absurd ((restored_version01_iff hnew rfl ?_).1 h) ?_
    · rfl
    · decide +kernel
  · exact not_restored_ipdiscovery rfl rfl

end Beacon

end IbrDtn
