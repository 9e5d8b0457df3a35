import NdpHeaan.Target.ReservationState

/-!
# Target/ReservationFrame — a reservation command that fails

ACQUIRE and RELEASE make all their checks before they touch anything.  REGISTER switches the
Persist Through Power Loss state first and looks at the host and its keys behind that, so a command
that is refused there has switched it all the same.
-/

open Machinery

namespace NdpHeaan

/-! ## The statement -/

/-- A command that fails changes nothing. -/
def FailsUnchanged (ns : NsResv) (c : ResvCmd) : Prop :=
  (nvmfNsReservationRequest ns c).status ≠ .success → (nvmfNsReservationRequest ns c).ns = ns

/-- CPTPL asks for the other state: off while it is on, or on while it is off. -/
def SwitchesPtpl (ns : NsResv) (r : DataReq) : Prop :=
  r.cptpl = 2 ∧ ns.ptplActivated = true ∨
    r.cptpl = 3 ∧ ns.ptplCapable = true ∧ ns.ptplActivated = false

/-- The host or its keys do not fit the action, or there is no memory. -/
def RegisterRefused (ns : NsResv) (c : ResvCmd) : Prop :=
  match c.r.resvAction, ns.getRegistrant c.hostid with
  | 0, none => c.r.keySecond = 0 ∨ c.allocOk = false
  | 0, some reg => reg.rkey ≠ c.r.keySecond
  | 1, none => True
  | 1, some reg => c.r.iekey = false ∧ reg.rkey ≠ c.r.keyCrkey
  | 2, none => c.r.keySecond = 0 ∨ c.r.iekey = false ∨ c.allocOk = false
  | 2, some reg => c.r.keySecond = 0 ∨ c.r.iekey = false ∧ reg.rkey ≠ c.r.keyCrkey
  | _, _ => True

/-! ## REGISTER -/

section Register

variable {ns : NsResv} {c : ResvCmd}

/-- The switch over RREGA fails exactly where the host or its keys do not fit. -/
theorem registerAction_status {update : Bool} :
    (registerAction ns c.hostid c.allocOk c.r.resvAction c.r.iekey c.r.keyCrkey c.r.keySecond
      update).status ≠ .success ↔ RegisterRefused ns c := by
  unfold registerAction RegisterRefused
  cases hreg : ns.getRegistrant c.hostid with
  | none =>
    split
    · simp only [registerKey, hreg]
      split_ifs <;> simp_all
    · rename_i haction
      simp [unregisterKey, hreg, haction]
    · simp only [replaceKey, hreg]
      split_ifs <;> simp_all
    · simp_all
  | some reg =>
    split
    · simp only [registerKey, hreg]
      split_ifs <;> simp_all
    · simp only [unregisterKey, hreg]
      split_ifs <;> simp_all
    · simp only [replaceKey, hreg]
      split_ifs <;> simp_all
    · simp_all

theorem changePtpl_eq_self (hcap : ¬ (c.r.cptpl = 3 ∧ ns.ptplCapable = false)) :
    (changePtpl ns c.r.cptpl).1 = ns ↔ ¬ SwitchesPtpl ns c.r := by
  have hon : ∀ on, { ns with ptplActivated := on } = ns ↔ on = ns.ptplActivated :=
    fun on => ⟨fun h => congrArg NsResv.ptplActivated h, fun h => by rw [h]⟩
  unfold changePtpl SwitchesPtpl
  split_ifs with htwo hact hthree hact
  all_goals simp_all

theorem register_unchanged_iff (hop : c.op = .register) :
    FailsUnchanged ns c ↔ ¬ (c.r.HasKey 16 ∧ SwitchesPtpl ns c.r ∧ RegisterRefused ns c) := by
  unfold FailsUnchanged nvmfNsReservationRequest
  rw [hop]
  dsimp only
  unfold nvmfNsReservationRegister
  by_cases hkey : c.r.HasKey 16
  swap
  · rw [if_pos hkey]
    exact iff_of_true (fun _ => rfl) fun h => hkey h.1
  rw [if_neg (not_not.mpr hkey)]
  by_cases hcap : c.r.cptpl = 3 ∧ ns.ptplCapable = false
  · rw [if_pos hcap]
    refine iff_of_true (fun _ => rfl) fun ⟨_, hswitch, _⟩ => ?_
    rcases hswitch with ⟨htwo, -⟩ | ⟨-, hcapable, -⟩
    · exact absurd (hcap.1.symm.trans htwo) (by decide)
    · exact absurd (hcap.2.symm.trans hcapable) (by decide)
  rw [if_neg hcap]
  dsimp only
  -- the switch touches neither the host nor its keys: they are refused as they would have been
  have hrefused : RegisterRefused (changePtpl ns c.r.cptpl).1 c ↔ RegisterRefused ns c := by
    obtain ⟨on, hon, -⟩ := changePtpl_eq ns c.r.cptpl
    rw [hon]
    exact Iff.rfl
  have hns := (@registerAction_outcome (changePtpl ns c.r.cptpl).1 c hop
    (changePtpl ns c.r.cptpl).2).unchanged
  rw [registerAction_status, hrefused] at hns ⊢
  rw [and_iff_right hkey, not_and', ← changePtpl_eq_self hcap]
  exact forall_congr' fun hr => by rw [hns hr]

end Register

/-! ## All three -/

/-- **A command that fails changes nothing, unless it is a REGISTER that switches the Persist
Through Power Loss state and is then refused for its host or keys.** -/
theorem resv_unchanged_iff (ns : NsResv) (c : ResvCmd) :
    FailsUnchanged ns c ↔
      ¬ (c.op = .register ∧ c.r.HasKey 16 ∧ SwitchesPtpl ns c.r ∧ RegisterRefused ns c) := by
  cases hop : c.op with
  | register => simpa using register_unchanged_iff hop
  | acquire =>
    refine iff_of_true ?_ (by simp)
    unfold FailsUnchanged nvmfNsReservationRequest
    rw [hop]
    exact (acquire_outcome hop).unchanged
  | release =>
    refine iff_of_true ?_ (by simp)
    unfold FailsUnchanged nvmfNsReservationRequest
    rw [hop]
    exact release_outcome.unchanged

/-- A namespace that can persist; a host registers the key 0 with CPTPL = 3. -/
def zeroKeyRegister : ResvCmd where
  op := .register
  hostid := 7
  r := .ofKeys 0xC0000000 0 0

/-- **The command fails with INVALID FIELD, and `ptpl_activated` is set.** -/
theorem refused_register_activates_ptpl :
    (nvmfNsReservationRequest { ptplCapable := true } zeroKeyRegister).status = .invalidField ∧
      (nvmfNsReservationRequest { ptplCapable := true } zeroKeyRegister).ns.ptplActivated = true ∧
      ¬ FailsUnchanged { ptplCapable := true } zeroKeyRegister := by
  refine ⟨by decide, by decide, fun h => ?_⟩
  have hsame := congrArg NsResv.ptplActivated (h (by decide))
  exact absurd hsame (by decide)

end NdpHeaan
