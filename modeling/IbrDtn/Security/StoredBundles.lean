import IbrDtn.Routing.TransferRecords
import IbrDtn.Security.SecurityManager

/-!
# Bundles that are stored

A bundle comes into the storage in memory through the router, which has what a peer sends checked
by the security manager, or through the API.  This file follows the stored bundles over the runs
of a router, and says where a stored bundle comes from and what its status flags stand for.  The
keys may be others at each check.

## Main definitions

* `SecurityManager.Activity` : what happens to a router and to its storage.
* `SecurityManager.Brings` : a bundle comes into the storage.

## Main results

* `MemoryBundleStorage.mem_bundles_step` : what one call of the storage brings.
* `SecurityManager.mem_bundles_after` : what one activity brings.
* `SecurityManager.stored_checked` : where the stored bundles come from.
-/

namespace IbrDtn

open Transition (Run)

namespace MemoryBundleStorage

variable {s : MemoryBundleStorage} {c : Clock} {b : Bundle}

theorem mem_bundles_insert {b' : Bundle} (h : b ∈ (s.insert c b').bundles) :
    b ∈ s.bundles ∨ b = b' := by
  rw [insert] at h
  dsimp only at h
  split at h
  · exact (OrderedSet.mem_of_mem_insert h).symm
  · exact .inl h

/-- An expiry brings nothing. -/
theorem mem_bundles_expireLoop {timestamp : UInt64} {es : List ExpiringBundle} {l : BundleList}
    (h : b ∈ (BundleList.expireLoop timestamp (expiryEvent c) es l s).2.bundles) :
    b ∈ s.bundles := by
  induction es generalizing l s with
  | nil => exact h
  | cons e es ih =>
      rw [BundleList.expireLoop] at h
      split_ifs at h
      · exact h
      · have hevent := ih h
        rw [expiryEvent, eventBundleExpired] at hevent
        split at hevent
        · exact List.mem_of_mem_eraseP hevent
        · exact hevent

/-- **What one call of the storage brings.** -/
theorem mem_bundles_step {call : Call} (h : b ∈ (s.step c call).2.bundles) :
    b ∈ s.bundles ∨ call = .store b := by
  cases call with
  | store b' =>
      rw [step] at h
      split_ifs at h
      · exact .inl h
      · rcases mem_bundles_insert h with h | rfl
        · exact .inl h
        · exact .inr rfl
  | removeById id =>
      rw [step] at h
      split at h
      · exact .inl (List.mem_of_mem_eraseP h)
      · exact .inl h
  | removeByFilter contains freed =>
      rw [step] at h
      split at h
      · exact .inl (List.mem_of_mem_eraseP h)
      · exact .inl h
  | expire timestamp =>
      rw [step, BundleList.expire] at h
      split_ifs at h
      · exact .inl (mem_bundles_expireLoop h)
      · exact .inl h
  | clear => exact absurd h List.not_mem_nil

end MemoryBundleStorage

namespace SecurityManager

variable {F : Type} [BloomFilter F]

/-- What happens to a router: it handles an event, with the security manager as it is then, an
extension processes a task, the response of a handshake is processed, and others call the
storage. -/
inductive Activity (F : Type) where
  | event (m : SecurityManager) (c : Clock) (event : RouterEvent)
  | task (env : TaskEnv) (x : Extension) (task : RoutingTask)
  | handshake (c : Clock) (freed : ℕ → MetaBundle) (source : EID) (answer : NodeHandshake F)
  | call (c : Clock) (call : MemoryBundleStorage.Call)

/-- The step of the router. -/
def Activity.step (r : BaseRouter MemoryBundleStorage F) :
    Activity F → RouterStep MemoryBundleStorage F
  | .event m c e => .event ⟨c, m.localEID, m.verify⟩ e
  | .task env x t => .task env x t
  | .handshake c freed source answer => .handshake c freed source answer
  | .call c k => .storage (r.storage.step c k).2

/-- The steps of a router. -/
def Step (r : BaseRouter MemoryBundleStorage F) (i : Activity F)
    (r' : BaseRouter MemoryBundleStorage F) : Prop :=
  r' = r.after (i.step r)

/-- A bundle that is received has blocks of the types that their classes have. -/
def Meets (_ : BaseRouter MemoryBundleStorage F) : Activity F → Prop
  | .event _ _ (.bundleReceived _ b _) => ∀ c ∈ b.blocks, c.body.HasType c.blocktype
  | _ => True

/-- A bundle comes into the storage: it is what the checks made of a bundle from a peer, so its
flags stand for these checks, or it is from this node. -/
inductive Brings (b : Bundle) : Activity F → Prop where
  | received {m : SecurityManager} {c : Clock} {peer : EID} {b₀ : Bundle}
      (hverify : m.verify b₀ = .ok b) (hchecked : Checked m b₀ b) :
      Brings b (.event m c (.bundleReceived peer b₀ false))
  | fromLocal (m : SecurityManager) (c : Clock) (peer : EID) :
      Brings b (.event m c (.bundleReceived peer b true))
  | generated (m : SecurityManager) (c : Clock) : Brings b (.event m c (.bundleGenerated b))
  | stored (c : Clock) : Brings b (.call c (.store b))

variable {r : BaseRouter MemoryBundleStorage F} {b : Bundle}

theorem mem_bundles_store {s s' : MemoryBundleStorage} {c : Clock} {b₁ : Bundle}
    (hstore : Storage.store s c b₁ = .ok s') (h : b ∈ s'.bundles) : b ∈ s.bundles ∨ b = b₁ := by
  have hstep : s' = (s.step c (.store b₁)).2 := by
    cases hstep : s.step c (.store b₁) with
    | mk outcome s₁ =>
        simp only [Storage.store, hstep] at hstore
        split at hstore
        · rename_i heq
          obtain ⟨-, rfl⟩ := Prod.mk.inj heq
          exact (Except.ok.inj hstore).symm
        · cases hstore
  rw [hstep] at h
  rcases MemoryBundleStorage.mem_bundles_step h with h | h
  · exact .inl h
  · exact .inr (MemoryBundleStorage.Call.store.inj h).symm

theorem mem_bundles_remove {s s' : MemoryBundleStorage} {c : Clock} {contains : Bytes → Bool}
    {freed info : MetaBundle} (hremove : Storage.remove s c contains freed = .ok (info, s'))
    (h : b ∈ s'.bundles) : b ∈ s.bundles := by
  have hstep : s' = (s.step c (.removeByFilter contains freed)).2 := by
    cases hstep : s.step c (.removeByFilter contains freed) with
    | mk outcome s₁ =>
        simp only [Storage.remove, MemoryBundleStorage.removeByFilter, hstep] at hremove
        split at hremove
        · rename_i heq
          obtain ⟨-, rfl⟩ := Prod.mk.inj heq
          exact (Prod.mk.inj (Except.ok.inj hremove)).2.symm
        · cases hremove
        · cases hremove
  rw [hstep] at h
  rcases MemoryBundleStorage.mem_bundles_step h with h | h
  · exact h
  · cases h

theorem mem_bundles_storeBundle {c : Clock} {peer : EID} {b₁ b₂ : Bundle}
    (h : b ∈ (r.storeBundle c peer b₁ b₂).router.storage.bundles) :
    b ∈ r.storage.bundles ∨ b = b₁ := by
  rw [BaseRouter.storeBundle] at h
  split at h
  · exact .inl h
  · exact .inl h
  · exact .inl h
  · rename_i storage hstore
    exact mem_bundles_store hstore h

theorem mem_bundles_purge {c : Clock} {contains : Bytes → Bool} {freed : ℕ → MetaBundle}
    (h : b ∈ (NodeHandshakeExtension.purge c contains freed r).storage.bundles) :
    b ∈ r.storage.bundles := by
  fun_induction NodeHandshakeExtension.purge c contains freed r with
  | case1 freed r e hremove => exact h
  | case2 freed r m storage hremove ih =>
      exact mem_bundles_remove hremove (ih h)

omit [BloomFilter F] in
theorem storage_updateNeighbor (c : Clock) (source : EID) (v : SummaryVector F)
    (lifetime : UInt64) (r : BaseRouter MemoryBundleStorage F) :
    (NodeHandshakeExtension.updateNeighbor c source v lifetime r).storage = r.storage := by
  rw [NodeHandshakeExtension.updateNeighbor]
  split
  · rfl
  · split <;> rfl

/-- **What one activity brings.** -/
theorem mem_bundles_after {i : Activity F} (hmeets : Meets r i)
    (h : b ∈ (r.after (i.step r)).storage.bundles) : b ∈ r.storage.bundles ∨ Brings b i := by
  cases i with
  | event m c e =>
      change b ∈ (r.raiseEvent ⟨c, m.localEID, m.verify⟩ e).router.storage.bundles at h
      cases e with
      | nodeAvailable eid => exact .inl h
      | nodeUnavailable eid =>
          rw [BaseRouter.raiseEvent, BaseRouter.raiseNode, if_neg Bool.false_ne_true] at h
          split at h <;> exact .inl h
      | transferCompleted peer info =>
          rw [BaseRouter.raiseEvent, BaseRouter.raiseTransferCompleted] at h
          split at h
          · exact .inl h
          · dsimp only at h
            split_ifs at h <;> split at h <;> exact .inl h
      | transferAborted peer id reason =>
          rw [BaseRouter.raiseEvent, BaseRouter.raiseTransferAborted] at h
          split at h
          · exact .inl h
          · dsimp only at h
            split_ifs at h
            · split at h <;> exact .inl h
            · exact .inl h
      | bundleReceived peer b₀ fromlocal =>
          rw [BaseRouter.raiseEvent, BaseRouter.raiseBundleReceived] at h
          split_ifs at h with hnull hlocal hknown
          · exact .inl h
          · rcases mem_bundles_storeBundle h with h | rfl
            · exact .inl h
            · rw [hlocal]
              exact .inr (.fromLocal m c peer)
          · exact .inl h
          · split at h
            · exact .inl h
            · exact .inl h
            · rename_i verified hverify
              rcases mem_bundles_storeBundle h with h | rfl
              · exact .inl h
              · rw [Bool.eq_false_iff.2 hlocal]
                exact .inr (.received hverify (checked_of_verify hmeets hverify))
      | bundleGenerated b₀ =>
          rw [BaseRouter.raiseEvent, BaseRouter.raiseBundleGenerated] at h
          dsimp only at h
          split at h
          · exact .inl h
          · exact .inl h
          · exact .inl h
          · rename_i storage hstore
            rcases mem_bundles_store hstore h with h | rfl
            · exact .inl h
            · exact .inr (.generated m c)
      | time timestamp => exact .inl h
  | task env x task => exact .inl h
  | handshake c freed source answer =>
      change b ∈
        (NodeHandshakeExtension.processHandshake c freed source r answer).1.storage.bundles at h
      rw [NodeHandshakeExtension.processHandshake] at h
      dsimp only at h
      split at h
      · have hpurge := mem_bundles_purge h
        split at hpurge
        · rw [storage_updateNeighbor] at hpurge
          exact .inl hpurge
        · exact .inl hpurge
      · split at h
        · rw [storage_updateNeighbor] at h
          exact .inl h
        · exact .inl h
  | call c call =>
      rcases MemoryBundleStorage.mem_bundles_step h with h | rfl
      · exact .inl h
      · exact .inr (.stored c)

/-- A bundle that is signed by `dtn://a`. -/
def sentSample : Bundle :=
  PayloadIntegrityBlock.signedSample PayloadIntegrityBlock.plainSample
    BundleAuthenticationBlock.sampleKey

/-- The bundle as it is stored. -/
def storedSample : Bundle := sentSample.setStatus PrimaryBlock.dtnsecStatusVerified

/-- A router without bundles. -/
def emptyRouter : BaseRouter MemoryBundleStorage CellFilter :=
  .create (.create 0) RoutingExtension.defaultRouting.extensions

/-- The bundle is received. -/
def receivedSample : Activity CellFilter :=
  .event sample (.showing 0) (.bundleReceived EID.none sentSample false)

theorem run_receivedSample : Run Step Meets emptyRouter [receivedSample]
    (emptyRouter.after (receivedSample.step emptyRouter)) := by
  have hmeets : Meets emptyRouter receivedSample := by
    change ∀ c ∈ sentSample.blocks, c.body.HasType c.blocktype
    decide +kernel
  exact .snoc .nil hmeets rfl

/-- **Where a stored bundle comes from**, and what its flags stand for: it was stored before the
run, or an activity of the run brought it. -/
theorem stored_checked {r₀ : BaseRouter MemoryBundleStorage F} {is : List (Activity F)}
    (hrun : Run Step Meets r₀ is r) (hb : b ∈ r.storage.bundles) :
    b ∈ r₀.storage.bundles ∨ ∃ i ∈ is, Brings b i := by
  induction hrun with
  | nil => exact .inl hb
  | @snoc is r₁ r₂ i _ hmeets hstep ih =>
      obtain rfl := hstep
      rcases mem_bundles_after hmeets hb with hb | hbrings
      · rcases ih hb with hb | ⟨j, hj, hbrings⟩
        · exact .inl hb
        · exact .inr ⟨j, List.mem_append_left _ hj, hbrings⟩
      · exact .inr ⟨i, List.mem_append_right _ (List.mem_singleton_self i), hbrings⟩

/-- **A bundle that is stored with the flag** for its signature. -/
theorem stored_checked_sample : ∃ i ∈ [receivedSample], Brings storedSample i := by
  have hstored : storedSample ∈
      (emptyRouter.after (receivedSample.step emptyRouter)).storage.bundles := by
    decide +kernel
  exact (stored_checked run_receivedSample hstored).resolve_left List.not_mem_nil

end SecurityManager

end IbrDtn
