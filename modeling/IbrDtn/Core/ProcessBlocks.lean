import IbrDtn.Security.PayloadConfidentialBlock

/-!
# Processing the blocks of a bundle

This file models `BundleCore::processBlocks` of `daemon/src/core/BundleCore.cpp`, which takes the
list of the blocks of a bundle and goes through it: at a confidentiality block it decrypts the
bundle, at a compressed payload block it extracts the payload.  Both take blocks away from the
bundle, which the list still refers to.

## Main definitions

* `BundleCore.processBlock` : what is done at a block.
* `BundleCore.Inside` : the blocks are examined while they are part of the bundle.
* `BundleCore.Meets` : the condition on each step.

## Main results

* `BundleCore.keeps_iff` : which steps keep the blocks that are still to come.
* `BundleCore.inside_iff` : for which bundles the loop stays inside of them.
-/

namespace IbrDtn

namespace BundleCore

open BundleMemory

/-- What the handlers depend on: the cipher, the key of the node, if it has one, the deserializer,
what the arrays hold before they are filled, zlib, whether a BLOB can be written, and how many
rounds the loops around zlib may take. -/
structure Surroundings where
  aes : AES128Stream
  rsa : RSA
  key : Option SecurityKey
  env : DeserializerEnv
  arrays : ℕ → PayloadConfidentialBlock.Arrays
  zlib : Zlib
  good : Bytes → Bool
  fuel : ℕ

/-- `PrimaryBlock::DTNSEC_STATUS_CONFIDENTIAL`. -/
def dtnsecStatusConfidential : UInt64 := 0x20000000

/-- `CompressedPayloadBlock::BLOCK_TYPE`. -/
def compressedType : UInt8 := Block.newCompressedPayload.blocktype

section Functions

variable (w : Surroundings) (m : BundleMemory) (i : ℕ)

/-- `bundle.getBlocks<PayloadConfidentialBlock>()` is not empty. -/
def HasConfidential : Prop := ∃ p ∈ m.refs i,
  (m.heap p).blocktype = PayloadConfidentialBlock.blockType ∧
    PayloadConfidentialBlock.IsConfidential m p

instance : Decidable (HasConfidential m i) :=
  inferInstanceAs (Decidable (∃ _ ∈ _, _ ∧ _))

/-- A flag of a bundle is set. -/
def setFlag (flag : UInt64) : BundleMemory :=
  { m with
    bundles := Function.update m.bundles i
      { m.bundles i with primary := (m.bundles i).primary.set flag true } }

/-- `SecurityManager::decrypt`. -/
def decrypt : Except Exn Unit × BundleMemory :=
  if HasConfidential m i then
    match w.key with
    | none => (.error (.exception "Key for this operation is not available."), m)
    | some key =>
        match PayloadConfidentialBlock.decrypt w.aes w.rsa w.env w.arrays m i key with
        | (.error e, m) => (.error e, m)
        | (.ok _, m) => (.ok (), setFlag m i dtnsecStatusConfidential)
  else (.ok (), m)

/-- `CompressedPayloadBlock::extract(Bundle&)`. -/
def extract : Except Exn Unit × BundleMemory :=
  match m.getBlock i compressedType Body.compressedPayload? with
  | none => (.error CompressedPayloadBlock.noSuchBlockFound, m)
  | some (c, cpb) =>
      match m.getBlock i Block.payloadType Body.payload? with
      | none => (.error CompressedPayloadBlock.noSuchBlockFound, m)
      | some (p, blob) =>
          match CompressedPayloadBlock.extractStream w.zlib w.good w.fuel cpb.algorithm blob with
          | .error e => (.error e, m)
          | .ok ref => (.ok (), ((m.insert i (.ofPayload ref) p).remove i p).remove i c)

/-- The handlers of `processBlocks`, which catch the exceptions of `ibrcommon`. -/
def caught : Except Exn Unit × BundleMemory → Except Exn Unit × BundleMemory
  | (.ok _, m) => (.ok (), m)
  | (.error e, m) => (if e.isException then .ok () else .error e, m)

/-- One round of `processBlocks`. -/
def processBlock (p : ℕ) : Except Exn Unit × BundleMemory :=
  if (m.heap p).blocktype = PayloadConfidentialBlock.blockType then caught (decrypt w m i)
  else if (m.heap p).blocktype = compressedType then caught (extract w m i)
  else (.ok (), m)

/-- The loop of `processBlocks`. -/
def processLoop : List ℕ → BundleMemory → Except Exn Unit × BundleMemory
  | [], m => (.ok (), m)
  | p :: ps, m =>
      match processBlock w m i p with
      | (.error e, m) => (.error e, m)
      | (.ok _, m) => processLoop ps m

/-- `BundleCore::processBlocks`. -/
def processBlocks : Except Exn Unit × BundleMemory := processLoop w i (m.refs i) m

/-- The references that the loop examines, each with the memory of that moment. -/
def visits : List ℕ → BundleMemory → List (ℕ × BundleMemory)
  | [], _ => []
  | p :: ps, m =>
      (p, m) :: match processBlock w m i p with
        | (.error _, _) => []
        | (.ok _, m) => visits ps m

/-- **The loop stays inside of the bundle**: each block is part of the bundle when it is examined,
and all of those of the start are processed. -/
structure Inside : Prop where
  examined : ∀ v ∈ visits w i (m.refs i) m, v.1 ∈ v.2.refs i
  processed : (visits w i (m.refs i) m).map Prod.fst = m.refs i
  returns : (processBlocks w m i).1 = .ok ()

/-! ### The condition -/

/-- The payload block and the compressed payload block that are found, with what is extracted. -/
def extraction : Option (ℕ × ℕ × Except Exn Bytes) :=
  match m.getBlock i compressedType Body.compressedPayload?,
      m.getBlock i Block.payloadType Body.payload? with
  | some (c, cpb), some (p, blob) => some (p, c,
      CompressedPayloadBlock.extractStream w.zlib w.good w.fuel cpb.algorithm blob)
  | _, _ => none

/-- The condition on a round: at a confidentiality block, `decrypt` takes away none of the blocks
that are still to come; at a compressed payload block, neither the payload that can be extracted nor
the compressed payload block is still to come; and both end with an exception at worst. -/
def Keeps (p : ℕ) (ps : List ℕ) : Prop :=
  if (m.heap p).blocktype = PayloadConfidentialBlock.blockType then
    HasConfidential m i → ∀ key ∈ w.key,
      (∀ e, PayloadConfidentialBlock.outcome w.aes w.rsa w.env w.arrays m i key (m.refs i) =
        .error e → e.isException = true) ∧
      ∀ q ∈ ps, ¬ PayloadConfidentialBlock.Gone w.aes w.rsa w.env w.arrays m i key q (m.refs i)
  else if (m.heap p).blocktype = compressedType then
    ∀ q c r, extraction w m i = some (q, c, r) →
      (∀ e, r = .error e → e.isException = true) ∧ ∀ ref, r = .ok ref → q ∉ ps ∧ c ∉ ps
  else True

/-- The condition: it holds in every round. -/
def Meets : List ℕ → BundleMemory → Prop
  | [], _ => True
  | p :: ps, m => Keeps w m i p ps ∧ Meets ps (processBlock w m i p).2

end Functions

/-! ### What a round leaves -/

section Results

variable {w : Surroundings} {m m' : BundleMemory} {i p : ℕ} {ps : List ℕ}

/-- A flag is no matter of the blocks. -/
theorem leaves_setFlag (h : m.Distinct i) (flag : UInt64) :
    m.Leaves (setFlag m i flag) i fun _ => False := by
  have hrefs : (setFlag m i flag).refs i = m.refs i := by
    simp [refs, setFlag]
  refine ⟨⟨?_, hrefs ▸ h.nodup⟩, le_rfl, fun _ _ => rfl, fun _ _ => rfl, fun q _ => ?_⟩
  · rw [hrefs]
    exact h.allocated
  · rw [hrefs, and_iff_left not_false]

/-- What the decryption throws and takes away. -/
theorem decrypt_spec (h : m.Distinct i) :
    (∀ e, (decrypt w m i).1 = .error e ∧ e.isException = false ↔ HasConfidential m i ∧
      ∃ key ∈ w.key, PayloadConfidentialBlock.outcome w.aes w.rsa w.env w.arrays m i key
        (m.refs i) = .error e ∧ e.isException = false) ∧
    m.Leaves (decrypt w m i).2 i fun q => HasConfidential m i ∧ ∃ key ∈ w.key,
      PayloadConfidentialBlock.Gone w.aes w.rsa w.env w.arrays m i key q (m.refs i) := by
  rw [decrypt]
  split_ifs with hhas
  · cases hkey : w.key with
    | none =>
        refine ⟨fun e => iff_of_false ?_ (by simp), h.leaves.congr fun q _ => by simp⟩
        rintro ⟨he, hexception⟩
        obtain rfl := Except.error.inj he
        cases hexception
    | some key =>
        obtain ⟨hfst, hleaves⟩ :=
          PayloadConfidentialBlock.decrypt_spec w.aes w.rsa w.env w.arrays key h
        simp only [hhas, true_and, Option.mem_some_iff, exists_eq_left']
        rcases hrun : PayloadConfidentialBlock.decrypt w.aes w.rsa w.env w.arrays m i key with
          ⟨e | _, m'⟩
        · rw [hrun] at hfst hleaves
          exact ⟨fun e => by rw [← hfst], hleaves⟩
        · rw [hrun] at hfst hleaves
          refine ⟨fun e => by simp [← hfst], ?_⟩
          have hboth := hleaves.trans (leaves_setFlag hleaves.distinct dtnsecStatusConfidential)
          exact hboth.congr fun q _ => iff_of_eq (or_false _)
  · exact ⟨fun e => by simp [hhas], h.leaves.congr fun q _ => by simp [hhas]⟩

/-- What the extraction throws and takes away. -/
theorem extract_spec (h : m.Distinct i) :
    (∀ e, (extract w m i).1 = .error e ∧ e.isException = false ↔
      ∃ q c r, extraction w m i = some (q, c, r) ∧ r = .error e ∧ e.isException = false) ∧
    m.Leaves (extract w m i).2 i fun q => ∃ p c ref, extraction w m i = some (p, c, .ok ref) ∧
      (q = p ∨ q = c) := by
  have hnone : ∀ e, (.error CompressedPayloadBlock.noSuchBlockFound : Except Exn Unit) = .error e ∧
      e.isException = false → False := by
    rintro e ⟨he, hexception⟩
    obtain rfl := Except.error.inj he
    cases hexception
  rw [extract, extraction]
  cases hc : m.getBlock i compressedType Body.compressedPayload? with
  | none => exact ⟨fun e => iff_of_false (hnone e) (by simp), h.leaves.congr fun q _ => by simp⟩
  | some x =>
      cases hp : m.getBlock i Block.payloadType Body.payload? with
      | none => exact ⟨fun e => iff_of_false (hnone e) (by simp), h.leaves.congr fun q _ => by simp⟩
      | some y =>
          dsimp only
          cases CompressedPayloadBlock.extractStream w.zlib w.good w.fuel x.2.algorithm y.2 with
          | error e' =>
              refine ⟨fun e => ?_, h.leaves.congr fun q _ => by simp⟩
              simp
          | ok ref =>
              have hinsert := h.leaves_insert (.ofPayload ref) y.1
              have hremove := hinsert.trans (hinsert.distinct.leaves_remove y.1)
              have hboth := hremove.trans (hremove.distinct.leaves_remove x.1)
              exact ⟨fun e => by simp, hboth.congr fun q _ => by simp⟩

/-- Only what is no exception of `ibrcommon` leaves a round. -/
theorem caught_fst (x : Except Exn Unit × BundleMemory) :
    (caught x).1 = .ok () ↔ ∀ e, ¬ (x.1 = .error e ∧ e.isException = false) := by
  rcases x with ⟨e | ⟨⟩, m⟩
  · cases he : e.isException <;> simp [caught, he]
  · simp [caught]

theorem caught_snd (x : Except Exn Unit × BundleMemory) : (caught x).2 = x.2 := by
  rcases x with ⟨e | ⟨⟩, m⟩ <;> rfl

/-- A round takes references away and gives none back. -/
theorem leaves_processBlock (h : m.Distinct i) (p : ℕ) :
    ∃ gone, m.Leaves (processBlock w m i p).2 i gone := by
  rw [processBlock]
  split_ifs
  · rw [caught_snd]
    exact ⟨_, (decrypt_spec h).2⟩
  · rw [caught_snd]
    exact ⟨_, (extract_spec h).2⟩
  · exact ⟨_, h.leaves⟩

/-- **The condition on a round**: it goes on, and keeps the blocks that are still to come. -/
theorem keeps_iff (h : m.Distinct i) (hps : ∀ q ∈ ps, q ∈ m.refs i) :
    Keeps w m i p ps ↔
      (processBlock w m i p).1 = .ok () ∧ ∀ q ∈ ps, q ∈ (processBlock w m i p).2.refs i := by
  have hkept {m' : BundleMemory} {gone : ℕ → Prop} (hleaves : m.Leaves m' i gone) :
      (∀ q ∈ ps, q ∈ m'.refs i) ↔ ∀ q ∈ ps, ¬ gone q := by
    refine forall₂_congr fun q hq => ?_
    rw [hleaves.mem q (h.allocated q (hps q hq)), and_iff_right (hps q hq)]
  rw [Keeps, processBlock]
  split_ifs with hconfidential hcompressed
  · obtain ⟨hthrows, hleaves⟩ := decrypt_spec (w := w) h
    rw [caught_fst, caught_snd, hkept hleaves]
    simp only [hthrows]
    constructor
    · intro hround
      refine ⟨?_, ?_⟩
      · rintro e ⟨hhas, key, hkey, he, hfalse⟩
        exact Bool.false_ne_true (hfalse.symm.trans ((hround hhas key hkey).1 e he))
      · rintro q hq ⟨hhas, key, hkey, hgone⟩
        exact (hround hhas key hkey).2 q hq hgone
    · rintro ⟨hthrow, hgone⟩ hhas key hkey
      refine ⟨fun e he => ?_, fun q hq hq' => hgone q hq ⟨hhas, key, hkey, hq'⟩⟩
      by_contra hfalse
      exact hthrow e ⟨hhas, key, hkey, he, Bool.eq_false_iff.2 hfalse⟩
  · obtain ⟨hthrows, hleaves⟩ := extract_spec (w := w) h
    rw [caught_fst, caught_snd, hkept hleaves]
    simp only [hthrows]
    constructor
    · intro hround
      refine ⟨?_, ?_⟩
      · rintro e ⟨q, c, r, hfound, he, hfalse⟩
        exact Bool.false_ne_true (hfalse.symm.trans ((hround q c r hfound).1 e he))
      · rintro s hs ⟨q, c, ref, hfound, rfl | rfl⟩
        · exact ((hround s c _ hfound).2 ref rfl).1 hs
        · exact ((hround q s _ hfound).2 ref rfl).2 hs
    · rintro ⟨hthrow, hgone⟩ q c r hfound
      refine ⟨fun e he => ?_, ?_⟩
      · by_contra hfalse
        exact hthrow e ⟨q, c, r, hfound, he, Bool.eq_false_iff.2 hfalse⟩
      · rintro ref rfl
        exact ⟨fun hq => hgone q hq ⟨q, c, ref, hfound, .inl rfl⟩,
          fun hc => hgone c hc ⟨q, c, ref, hfound, .inr rfl⟩⟩
  · exact iff_of_true trivial ⟨rfl, hps⟩

/-! ### The loop -/

/-- A loop that returns has examined everything. -/
theorem map_fst_visits (h : (processLoop w i ps m).1 = .ok ()) :
    (visits w i ps m).map Prod.fst = ps := by
  induction ps generalizing m with
  | nil => rfl
  | cons p ps ih =>
      rw [processLoop] at h
      rw [visits, List.map_cons]
      rcases hround : processBlock w m i p with ⟨e | ⟨⟩, m'⟩
      · rw [hround] at h
        cases h
      · rw [hround] at h
        exact congrArg _ (ih h)

/-- What is part of the bundle when it is examined has been so all the time. -/
theorem mem_refs_of_visits (h : m.Distinct i) (hps : ∀ q ∈ ps, q < m.next)
    (hreturns : (processLoop w i ps m).1 = .ok ())
    (hvisits : ∀ v ∈ visits w i ps m, v.1 ∈ v.2.refs i) : ∀ q ∈ ps, q ∈ m.refs i := by
  induction ps generalizing m with
  | nil => exact fun q hq => absurd hq List.not_mem_nil
  | cons p ps ih =>
      obtain ⟨-, hps⟩ := List.forall_mem_cons.1 hps
      rw [visits, List.forall_mem_cons] at hvisits
      rw [processLoop] at hreturns
      obtain ⟨gone, hleaves⟩ := leaves_processBlock (w := w) h p
      rcases hround : processBlock w m i p with ⟨e | ⟨⟩, m'⟩
      · rw [hround] at hreturns
        cases hreturns
      · rw [hround] at hreturns hvisits hleaves
        have hrest := ih hleaves.distinct (fun q hq => (hps q hq).trans_le hleaves.next) hreturns
          hvisits.2
        exact List.forall_mem_cons.2 ⟨hvisits.1, fun q hq =>
          ((hleaves.mem q (hps q hq)).1 (hrest q hq)).1⟩

/-- The loop over blocks of the bundle. -/
theorem visits_iff (h : m.Distinct i) (hps : ∀ q ∈ ps, q ∈ m.refs i) :
    (∀ v ∈ visits w i ps m, v.1 ∈ v.2.refs i) ∧ (processLoop w i ps m).1 = .ok () ↔
      Meets w i ps m := by
  induction ps generalizing m with
  | nil => exact iff_of_true ⟨fun v hv => absurd hv List.not_mem_nil, rfl⟩ trivial
  | cons p ps ih =>
      obtain ⟨hp, hps⟩ := List.forall_mem_cons.1 hps
      obtain ⟨gone, hleaves⟩ := leaves_processBlock (w := w) h p
      rw [Meets, keeps_iff h hps, visits, processLoop, List.forall_mem_cons, and_iff_right hp]
      rcases hround : processBlock w m i p with ⟨e | ⟨⟩, m'⟩
      · exact iff_of_false (fun hall => by cases hall.2) fun hall => by cases hall.1.1
      · rw [hround] at hleaves
        dsimp only at hleaves ⊢
        rw [and_iff_right rfl]
        constructor
        · rintro ⟨hvisits, hreturns⟩
          have hkept := mem_refs_of_visits hleaves.distinct
            (fun q hq => (h.allocated q (hps q hq)).trans_le hleaves.next) hreturns hvisits
          exact ⟨hkept, (ih hleaves.distinct hkept).1 ⟨hvisits, hreturns⟩⟩
        · rintro ⟨hkept, hrest⟩
          exact (ih hleaves.distinct hkept).2 hrest

/-- **The blocks are examined while they are part of the bundle**, and all of them are processed,
exactly if the condition holds in every round. -/
theorem inside_iff (h : m.Distinct i) : Inside w m i ↔ Meets w i (m.refs i) m := by
  rw [← visits_iff h fun q hq => hq]
  exact ⟨fun hinside => ⟨hinside.examined, hinside.returns⟩,
    fun hboth => ⟨hboth.1, map_fst_visits hboth.2, hboth.2⟩⟩

end Results

/-! ### Bundles with a compressed payload -/

/-- A node without a key. -/
def sampleSurroundings : Surroundings where
  aes := AES128Stream.sample
  rsa := ⟨fun _ _ => none⟩
  key := none
  env := .default BLOB.exact ⟨0, 0⟩
  arrays _ := ⟨[], [], []⟩
  zlib := CompressedPayloadBlock.sampleZlib
  good _ := true
  fuel := 3

/-- A bundle with the given blocks. -/
def sampleMemory (blocks : List Block) : BundleMemory :=
  ⟨fun p => blocks.getD p Block.newExtension, blocks.length,
    fun _ => ⟨PrimaryBlock.create 1 0, List.range blocks.length⟩⟩

theorem distinct_sampleMemory (blocks : List Block) (i : ℕ) : (sampleMemory blocks).Distinct i :=
  ⟨fun _ hp => List.mem_range.1 hp, List.nodup_range⟩

/-- An empty payload that was compressed. -/
def samplePayload : Block := .ofPayload (CompressedPayloadBlock.sampleStream [])

/-- The block that says so. -/
def sampleCompressed : Block :=
  { Block.newCompressedPayload with
    body := .compressedPayload ⟨CompressedPayloadBlock.compressionZlib, 0⟩ }

/-- The payload comes first. -/
theorem inside_iff_sample :
    Inside sampleSurroundings (sampleMemory [samplePayload, sampleCompressed]) 0 := by
  refine (inside_iff (distinct_sampleMemory _ 0)).2 ⟨trivial, ?_, trivial⟩
  intro q c r hfound
  have hextraction : extraction sampleSurroundings
      (sampleMemory [samplePayload, sampleCompressed]) 0 = some (0, 1, .ok []) := rfl
  cases hextraction.symm.trans hfound
  refine ⟨fun e he => ?_, fun _ _ => ⟨List.not_mem_nil, List.not_mem_nil⟩⟩
  cases he

/-- **The payload is still to come** when it is extracted. -/
theorem not_inside_sample :
    ¬ Inside sampleSurroundings (sampleMemory [sampleCompressed, samplePayload]) 0 := by
  intro h
  have hexamined := List.all_eq_true.2 fun v hv => decide_eq_true (h.examined v hv)
  revert hexamined
  decide +kernel

end BundleCore

end IbrDtn
