import OpenBeach.Solidity

/-!
# Contracts with an owner

`Ownable`, which the marketplace and the collections inherit. It is written once over the
owner of a storage, and each contract applies it to its own. What a call does when it
succeeds is stated here once as well.
-/

namespace OpenBeach

/-- The part of a contract's storage that `Ownable` keeps: whose the contract is, and the same
storage with another owner. -/
structure Ownable (σ : Type) where
  owner : σ → Address
  setOwner : σ → Address → σ

namespace Ownable

variable {σ : Type} (contract : Ownable σ)

/-- `_checkOwner`, the check of `onlyOwner`: the sender has to be the owner. -/
def checkOwner (sender : Address) (s : σ) : Except Revert Unit :=
  ensure (contract.owner s = sender) (.ownableUnauthorizedAccount sender)

/-- `transferOwnership`: the owner hands the contract over, to any account but zero. -/
def transferOwnership (sender newOwner : Address) (s : σ) : Except Revert σ := do
  contract.checkOwner sender s
  ensure (newOwner ≠ 0) (.ownableInvalidOwner 0)
  pure (contract.setOwner s newOwner)

/-- `renounceOwnership`: the owner leaves the contract without one. -/
def renounceOwnership (sender : Address) (s : σ) : Except Revert σ := do
  contract.checkOwner sender s
  pure (contract.setOwner s 0)

variable {contract} {sender newOwner : Address} {s after : σ}

/-- The check passes for the owner and for nobody else. A contract without an owner has
zero there, and zero sends no calls. -/
theorem checkOwner_ok {checked : Unit} :
    contract.checkOwner sender s = .ok checked ↔ contract.owner s = sender := ensure_ok

/-- A handover that succeeds was the owner's, was not to zero, and changed the owner alone. -/
theorem transferOwnership_ok :
    contract.transferOwnership sender newOwner s = .ok after ↔
      contract.owner s = sender ∧ newOwner ≠ 0 ∧ after = contract.setOwner s newOwner := by
  unfold transferOwnership
  simp only [bind_ok, checkOwner_ok, ensure_ok, pure_ok, exists_const]

/-- The owner, and nobody else, can give the contract up. -/
theorem renounceOwnership_ok :
    contract.renounceOwnership sender s = .ok after ↔
      contract.owner s = sender ∧ after = contract.setOwner s 0 := by
  unfold renounceOwnership
  simp only [bind_ok, checkOwner_ok, pure_ok, exists_const]

end Ownable

end OpenBeach
