import OpenBeach.Ownable
import OpenBeach.Storage

/-!
# The collection contract

`NFTCollection` inherits `ERC721URIStorage` and `Ownable`; the functions here
follow the inherited contracts' internal structure, without the events. A function
takes the sender of its call where it reads `_msgSender()`.

`mint` hands control to its recipient between creating the token and storing its
URI, so it appears here in the two parts around that call.
-/

namespace OpenBeach.NFTCollection

open Function Mappings

/-- The constructor, with the storage it leaves. The owner is named by whoever deploys, and must
not be zero. -/
def constructor (name symbol baseURI : Bytes) (marketplaceAddress : Address) (category : Bytes)
    (initialOwner : Address) : Except Revert NFTCollection := do
  ensure (initialOwner ≠ 0) (.ownableInvalidOwner 0)
  pure
    { name, symbol, baseURI, marketplaceAddress, category
      owner := initialOwner
      tokenIds := 0
      owners := fun _ => 0
      tokenApprovals := fun _ => 0
      operatorApprovals := fun _ _ => false
      tokenURIs := fun _ => [] }

/-- The owner of the contract, as `Ownable` keeps it. What the contract inherits works on this
field alone. -/
def ownable : Ownable NFTCollection where
  owner s := s.owner
  setOwner s owner := { s with owner }

/-- `onlyOwner`. Of the functions of its own, only `mint` asks for the owner. -/
def checkOwner (sender : Address) (s : NFTCollection) : Except Revert Unit :=
  ownable.checkOwner sender s

/-- `transferOwnership` of the collection, as it is inherited. -/
def transferOwnership (sender newOwner : Address) (s : NFTCollection) :
    Except Revert NFTCollection :=
  ownable.transferOwnership sender newOwner s

/-- `renounceOwnership` of the collection, as it is inherited. -/
def renounceOwnership (sender : Address) (s : NFTCollection) : Except Revert NFTCollection :=
  ownable.renounceOwnership sender s

/-- `_requireOwned`: the owner of an existing token. A token exists exactly if it has an owner. -/
def requireOwned (tokenId : UInt256) (s : NFTCollection) : Except Revert Address := do
  ensure (s.owners tokenId ≠ 0) (.erc721NonexistentToken tokenId)
  pure (s.owners tokenId)

/-- `_isAuthorized`. Zero is nobody, so it is never authorized, although every absent approval is
zero. -/
def isAuthorized (owner spender : Address) (tokenId : UInt256) (s : NFTCollection) : Bool :=
  spender ≠ 0 &&
    (owner == spender || s.operatorApprovals owner spender || s.tokenApprovals tokenId == spender)

/-- `_checkAuthorized`. A token that does not exist is reported as such, and not as unauthorized. -/
def checkAuthorized (owner spender : Address) (tokenId : UInt256) (s : NFTCollection) :
    Except Revert Unit :=
  ensure (s.isAuthorized owner spender tokenId = true)
    (if owner = 0 then .erc721NonexistentToken tokenId
      else .erc721InsufficientApproval spender tokenId)

/-- `_update`: a non-zero `auth` must be authorised; a token that had an owner loses
its approval. Returns the previous owner. -/
def updateToken (target : Address) (tokenId : UInt256) (auth : Address) (s : NFTCollection) :
    Except Revert (Address × NFTCollection) := do
  let previousOwner := s.owners tokenId
  if auth ≠ 0 then checkAuthorized previousOwner auth tokenId s else pure ()
  let s := if previousOwner ≠ 0 then
    { s with tokenApprovals := update s.tokenApprovals tokenId 0 } else s
  let s := { s with owners := update s.owners tokenId target }
  pure (previousOwner, s)

/-- `transferFrom`. The token is moved first, and only then the previous owner is compared with
the one that the caller named; a mismatch reverts the whole call. -/
def transferFrom (sender source target : Address) (tokenId : UInt256) (s : NFTCollection) :
    Except Revert NFTCollection := do
  ensure (target ≠ 0) (.erc721InvalidReceiver 0)
  let (previousOwner, s) ← updateToken target tokenId sender s
  ensure (previousOwner = source) (.erc721IncorrectOwner source tokenId previousOwner)
  pure s

/-- `approve`. The owner of the token may approve an account, and so may an operator of the owner.
An account that is approved for the token alone may not. -/
def approve (sender target : Address) (tokenId : UInt256) (s : NFTCollection) :
    Except Revert NFTCollection := do
  let owner ← requireOwned tokenId s
  ensure (sender = 0 ∨ owner = sender ∨ s.operatorApprovals owner sender = true)
    (.erc721InvalidApprover sender)
  pure { s with tokenApprovals := update s.tokenApprovals tokenId target }

/-- `setApprovalForAll`. Anybody can name operators, whether or not they hold tokens. The flag can
be taken back in the same way. -/
def setApprovalForAll (sender operator : Address) (approved : Bool) (s : NFTCollection) :
    Except Revert NFTCollection := do
  ensure (operator ≠ 0) (.erc721InvalidOperator operator)
  pure { s with operatorApprovals := update₂ s.operatorApprovals sender operator approved }

/-- `_mint`: the token must not have an owner yet. An existing token is reported as a transfer
from an invalid sender, after it was moved; the call reverts. -/
def mintToken (recipient : Address) (tokenId : UInt256) (s : NFTCollection) :
    Except Revert NFTCollection := do
  ensure (recipient ≠ 0) (.erc721InvalidReceiver 0)
  let (previousOwner, s) ← updateToken recipient tokenId 0 s
  ensure (previousOwner = 0) (.erc721InvalidSender 0)
  pure s

/-- `mint` up to the recipient's callback: the new identifier and the storage. The counter is
increased before the token is created, so numbers begin with one. -/
def beginMint (sender recipient : Address) (s : NFTCollection) :
    Except Revert (UInt256 × NFTCollection) := do
  checkOwner sender s
  let newTokenId ← checkedAdd s.tokenIds 1
  let s ← mintToken recipient newTokenId { s with tokenIds := newTokenId }
  pure (newTokenId, s)

/-- `_setTokenURI`. It does not ask whether the token exists. -/
def setTokenURI (tokenId : UInt256) (tokenURI : Bytes) (s : NFTCollection) : NFTCollection :=
  { s with tokenURIs := update s.tokenURIs tokenId tokenURI }

/-- The `_baseURI()` hook, which the contract does not override. So the base URI that the
constructor stores is read by nothing. -/
def baseURIHook : Bytes := []

/-- `tokenURI` of `ERC721URIStorage`. The inherited fallback that derives a URI from
the identifier needs a base URI, and the hook above is empty. -/
def tokenURI (tokenId : UInt256) (s : NFTCollection) : Except Revert Bytes := do
  let _ ← requireOwned tokenId s
  pure (baseURIHook ++ s.tokenURIs tokenId)

/-- `totalSupply` is the last number that was given to a token. Nothing is ever burned. -/
def totalSupply (s : NFTCollection) : UInt256 := s.tokenIds

end OpenBeach.NFTCollection
