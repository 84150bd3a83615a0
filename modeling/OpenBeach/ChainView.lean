import OpenBeach.MintInterleavings
import OpenBeach.Opening
import OpenBeach.Permanence

/-!
# The chain as the backend has it

To the backend the chain is a list of URIs for each collection, and a mint puts one behind the
others. The contracts bear this out: the list is what a collection answers by number, a mint
by its owner is a push, and whatever else happens on chain, calls in calls included, only
adds to the lists.
-/

namespace OpenBeach

open Function Mappings NestedCalls Services

/-- The lists tell the URIs of the tokens by their numbers. A token whose mint is in progress need
not have its URI yet, and is not told. -/
structure World.Shows (w : World) (backend : Backend) : Prop where
  absent : ∀ collection, w.deployed collection = none → backend.minted collection = []
  supply : ∀ collection s, w.deployed collection = some s →
    backend.supply collection = s.totalSupply.toNat
  uris : ∀ collection s (tokenId : UInt256) tokenURI, w.deployed collection = some s →
    backend.Holds collection tokenId.toNat tokenURI → s.tokenURI tokenId = .ok (bytes tokenURI)

/-- One more token of a collection is one more URI behind the others. What they told of the other
tokens, and of other collections, stays told. -/
theorem World.Shows.push {w after : World} {backend : Backend} {collection : Address}
    {s result : NFTCollection} {tokenURI : String} (shows : w.Shows backend)
    (found : w.deployed collection = some s)
    (left : after.deployed = update w.deployed collection (some result))
    (supply : result.totalSupply.toNat = s.totalSupply.toNat + 1)
    (last : ∀ tokenId : UInt256, tokenId.toNat = result.totalSupply.toNat →
      result.tokenURI tokenId = .ok (bytes tokenURI))
    (others : ∀ (tokenId : UInt256) told, tokenId.toNat ≤ s.totalSupply.toNat →
      s.tokenURI tokenId = .ok told → result.tokenURI tokenId = .ok told) :
    after.Shows (backend.push collection tokenURI) := by
  have before := shows.supply collection s found
  have length : backend.supply collection = (backend.minted collection).length := rfl
  constructor
  · intro other absent
    have apart : other ≠ collection := by
      rintro rfl
      simp [left] at absent
    rw [Backend.minted_push, if_neg (Ne.symm apart), List.append_nil]
    exact shows.absent other (by simpa [left, apart] using absent)
  · intro other storage still
    rw [Backend.supply, Backend.minted_push, List.length_append]
    by_cases same : other = collection
    · subst same
      obtain rfl : result = storage := by simpa [left] using still
      rw [if_pos rfl, List.length_singleton]
      omega
    · have kept : w.deployed other = some storage := by simpa [left, same] using still
      rw [if_neg (Ne.symm same), List.length_nil]
      exact shows.supply other storage kept
  · rintro other storage tokenId text still ⟨positive, here⟩
    rw [Backend.minted_push] at here
    by_cases same : other = collection
    · subst same
      obtain rfl : result = storage := by simpa [left] using still
      rw [if_pos rfl, List.getElem?_append] at here
      split at here
      · next within =>
        refine others tokenId _ (by omega) ?_
        exact shows.uris other s tokenId text found ⟨positive, here⟩
      · next beyond =>
        rw [List.getElem?_singleton] at here
        split at here
        · cases here
          exact last tokenId (by omega)
        · cases here
    · have kept : w.deployed other = some storage := by simpa [left, same] using still
      rw [if_neg (Ne.symm same), List.append_nil] at here
      exact shows.uris other storage tokenId text kept ⟨positive, here⟩

/-- What the lists tell does not depend on the documents. It is a statement on the numbers and the
URIs of tokens. -/
theorem World.Shows.congr {w : World} {backend other : Backend} (shows : w.Shows backend)
    (same : other.minted = backend.minted) : w.Shows other := by
  constructor
  · intro collection absent
    rw [same]
    exact shows.absent collection absent
  · intro collection s found
    rw [Backend.supply, same]
    exact shows.supply collection s found
  · intro collection s tokenId tokenURI found holds
    rw [Backend.Holds, same] at holds
    exact shows.uris collection s tokenId tokenURI found holds

/-- A token of the lists is a token of its collection. Its URI on chain is the text that the list
has under its number. -/
theorem World.Shows.told {w : World} {backend : Backend} {collection : Address} {number : Nat}
    {tokenURI : String} (shows : w.Shows backend)
    (holds : backend.Holds collection number tokenURI) :
    ∃ s tokenId, w.deployed collection = some s ∧ tokenId.toNat = number ∧
      s.tokenURI tokenId = .ok (bytes tokenURI) := by
  have within := holds.le_supply
  cases found : w.deployed collection with
  | none =>
    have positive := holds.1
    rw [Backend.supply, shows.absent collection found, List.length_nil] at within
    omega
  | some s =>
    rw [shows.supply collection s found] at within
    have small : number < 2 ^ 256 := Nat.lt_of_le_of_lt within s.totalSupply.bound
    exact ⟨s, ⟨number, small⟩, rfl, rfl, shows.uris collection s ⟨number, small⟩ tokenURI found holds⟩

/-- A text that the URI of a token says. A URI that is no text stands for some text or other,
which no statement depends on. -/
noncomputable def NFTCollection.text (s : NFTCollection) (number : Nat) : String :=
  Classical.epsilon fun text =>
    ∃ tokenId : UInt256, tokenId.toNat = number ∧ s.tokenURI tokenId = .ok (bytes text)

/-- If the URI of a token is a text at all, the text that is read off the chain is one with the
same bytes. Which one does not matter, since texts are compared by their bytes. -/
theorem NFTCollection.text_spec {s : NFTCollection} {tokenId : UInt256} {text : String}
    (told : s.tokenURI tokenId = .ok (bytes text)) :
    s.tokenURI tokenId = .ok (bytes (s.text tokenId.toNat)) := by
  obtain ⟨token, number, spelled⟩ := Classical.epsilon_spec (p := fun text =>
    ∃ token : UInt256, token.toNat = tokenId.toNat ∧ s.tokenURI token = .ok (bytes text))
    ⟨text, tokenId, rfl, told⟩
  obtain rfl := Word.ext number
  exact spelled

/-- What collections have that the lists do not, collection by collection. The numbers follow the
last one that the list has, up to the supply on chain. -/
noncomputable def Backend.missed (backend : Backend) (w : World) : List (Address × String) :=
  w.marketplace.collectionAddresses.flatMap fun collection =>
    match w.deployed collection with
    | none => []
    | some s =>
      (List.range' (backend.supply collection + 1)
        (s.totalSupply.toNat - backend.supply collection)).map fun number =>
          (collection, s.text number)

/-- One push after the other. The tokens arrive in the order of the list. -/
def Backend.pushAll (backend : Backend) (tokens : List (Address × String)) : Backend :=
  tokens.foldl (fun backend token => backend.push token.1 token.2) backend

namespace Backend

variable {backend : Backend} {w : World} {collection : Address} {s : NFTCollection} {number : Nat}
  {tokenURI : String}

/-- After several pushes a collection has the tokens that were pushed for it behind those it had,
in their order. -/
theorem pushAll_minted (backend : Backend) (tokens : List (Address × String))
    (collection : Address) : (backend.pushAll tokens).minted collection =
      backend.minted collection ++
        (tokens.filter fun token => token.1 = collection).map Prod.snd := by
  induction tokens generalizing backend with
  | nil => exact (List.append_nil _).symm
  | cons token rest inductionHypothesis =>
    have unfolded : backend.pushAll (token :: rest) =
        (backend.push token.1 token.2).pushAll rest := rfl
    rw [unfolded, inductionHypothesis, minted_push, List.append_assoc]
    by_cases same : token.1 = collection <;> simp [same]

/-- Minting on chain touches no document. Documents are written by saves only. -/
theorem pushAll_documents (backend : Backend) (tokens : List (Address × String)) :
    (backend.pushAll tokens).documents = backend.documents := by
  induction tokens generalizing backend with
  | nil => rfl
  | cons token rest inductionHypothesis => exact inductionHypothesis (backend.push token.1 token.2)

/-- Nothing is missed of an address that has no collection. Only the addresses of the registry are
walked, and no token is told for this one. -/
theorem missed_absent (absent : w.deployed collection = none) :
    (backend.missed w).filter (fun token => token.1 = collection) = [] := by
  rw [List.filter_eq_nil_iff]
  rintro token member
  obtain ⟨other, _, listed⟩ := List.mem_flatMap.mp member
  cases found : w.deployed other with
  | none =>
    rw [found] at listed
    cases listed
  | some s =>
    rw [found] at listed
    obtain ⟨number, _, rfl⟩ := List.mem_map.mp listed
    have apart : other ≠ collection := by
      rintro rfl
      rw [absent] at found
      cases found
    simp [apart]

/-- What is missed of a collection are the texts of the numbers above those that the lists know,
up to its supply. The registry lists each collection once, so nothing is missed twice. -/
theorem missed_found (distinct : w.marketplace.collectionAddresses.Nodup)
    (registered : collection ∈ w.marketplace.collectionAddresses)
    (found : w.deployed collection = some s) :
    ((backend.missed w).filter fun token => token.1 = collection).map Prod.snd =
      (List.range' (backend.supply collection + 1)
        (s.totalSupply.toNat - backend.supply collection)).map s.text := by
  obtain ⟨before, after, split⟩ := List.append_of_mem registered
  have elsewhere : ∀ others : List Address, collection ∉ others →
      (others.flatMap fun other => match w.deployed other with
        | none => []
        | some s => (List.range' (backend.supply other + 1)
            (s.totalSupply.toNat - backend.supply other)).map fun number =>
              (other, s.text number)).filter (fun token => token.1 = collection) = [] := by
    intro others unlisted
    rw [List.filter_eq_nil_iff]
    intro token member
    obtain ⟨other, listed, told⟩ := List.mem_flatMap.mp member
    have apart : other ≠ collection := fun same => unlisted (same ▸ listed)
    split at told
    · cases told
    · obtain ⟨number, _, rfl⟩ := List.mem_map.mp told
      simp [apart]
  rw [split, List.nodup_append] at distinct
  obtain ⟨_, distinct, apart⟩ := distinct
  have first := elsewhere before fun listed => apart _ listed _ List.mem_cons_self rfl
  have last := elsewhere after (List.nodup_cons.mp distinct).1
  rw [missed, split, List.flatMap_append, List.flatMap_cons, List.filter_append,
    List.filter_append, first, last, found]
  simp [List.filter_map, Function.comp_def]

/-- A token of the lists was in them before, or its URI is read off the chain. -/
theorem holds_missed (distinct : w.marketplace.collectionAddresses.Nodup)
    (registered : collection ∈ w.marketplace.collectionAddresses)
    (found : w.deployed collection = some s)
    (holds : (backend.pushAll (backend.missed w)).Holds collection number tokenURI) :
    backend.Holds collection number tokenURI ∨
      number ≤ s.totalSupply.toNat ∧ tokenURI = s.text number := by
  obtain ⟨positive, here⟩ := holds
  rw [pushAll_minted, missed_found distinct registered found, List.getElem?_append] at here
  split at here
  · exact .inl ⟨positive, here⟩
  · next beyond =>
    rw [List.getElem?_map, Option.map_eq_some_iff] at here
    obtain ⟨same, position, told⟩ := here
    obtain ⟨within, rfl⟩ := List.getElem?_eq_some_iff.mp position
    rw [List.length_range'] at within
    rw [List.getElem_range'] at told
    have supply : backend.supply collection = (backend.minted collection).length := rfl
    have here : backend.supply collection + 1 + 1 * (number - 1 - (backend.minted collection).length) =
        number := by omega
    rw [here] at told
    exact .inr ⟨by omega, told.symm⟩

end Backend

namespace Deployment

variable (deployment : Deployment) (moves : List (Move Action)) {backend : Backend}

/-- No call is in progress. Nothing is left to resume, and nothing to roll back. -/
structure Settled : Prop where
  saved : (deployment.run moves).saved = []
  returned : (deployment.run moves).current.pending = []

/-- A call that runs to its end leaves none in progress. Only the end of a block is excluded, and
calls that wait for a callback. -/
theorem settled_act {action : Action} {after : World} (settled : deployment.Settled moves)
    (inner : (chain deployment.address).outermost action = false)
    (ran : execute deployment.address action (deployment.world moves) = .ok (after, none)) :
    deployment.Settled (moves ++ [.act action]) := by
  have whole : deployment.run (moves ++ [.act action]) =
      (deployment.run moves).step (chain deployment.address) (.act action) :=
    Config.run_append _ _ moves [.act action]
  have executed : (chain deployment.address).execute action
      (deployment.run moves).current.state = .ok (after, none) := ran
  constructor
  · simpa [whole, Config.step, inner, executed] using settled.saved
  · simpa [whole, Config.step, inner, executed] using settled.returned

/-- The tokens of a collection are numbered up to its supply. Tokens are never burnt, and a mint
takes the next number. -/
theorem existing_iff {collection : Address} {s : NFTCollection} {tokenId : UInt256}
    (found : (deployment.world moves).deployed collection = some s) :
    s.owners tokenId ≠ 0 ↔ 1 ≤ tokenId.toNat ∧ tokenId.toNat ≤ s.totalSupply.toNat := by
  rw [← Accounted.existing_iff]
  exact (deployment.accounted moves found).numbered tokenId

/-- Every mint is asked for with a text. The service passes strings, and other callers might pass
any bytes. -/
def Textual (moves : List (Move Action)) : Prop :=
  ∀ sender collection recipient tokenURI,
    .act (.collection sender collection (.mint recipient tokenURI)) ∈ moves →
      ∃ text, tokenURI = bytes text

/-- Moves that mint texts, and more such moves, are such moves. What others do on chain is such a
list of moves as well. -/
theorem Textual.append {moves later : List (Move Action)} (textual : Textual moves)
    (alsoTextual : Textual later) : Textual (moves ++ later) := by
  intro sender collection recipient tokenURI member
  rcases List.mem_append.mp member with before | after
  · exact textual sender collection recipient tokenURI before
  · exact alsoTextual sender collection recipient tokenURI after

/-- A mint call says its URI. The URI is the argument of the call, also where the call waited for
a callback. -/
theorem mintCall_asked {collection : Address} {receipt : ChainReceipt} {tokenId : UInt256}
    {tokenURI : Bytes} (called : mintCall collection receipt = some (tokenId, tokenURI)) :
    ∃ sender recipient,
      receipt.event = .executed (.collection sender collection (.mint recipient tokenURI)) := by
  unfold mintCall at called
  split at called
  · next sender target recipient asked event =>
    split at called
    · next same =>
      subst same
      split at called
      · cases called
      · obtain ⟨begun, _, given⟩ := Option.map_eq_some_iff.mp called
        obtain ⟨_, rfl⟩ := Prod.mk.inj given
        exact ⟨sender, recipient, event⟩
    · cases called
  · cases called

/-- Then the URIs on chain are texts. The URI of a token is the argument of the mint that made it. -/
theorem legible {moves : List (Move Action)} (textual : Textual moves) (collection : Address)
    (s : NFTCollection) (tokenId : UInt256) (tokenURI : Bytes)
    (found : (deployment.world moves).deployed collection = some s)
    (told : s.tokenURI tokenId = .ok tokenURI) : ∃ text, tokenURI = bytes text := by
  have accounted := deployment.accounted moves found
  obtain ⟨present, rfl⟩ := NFTCollection.tokenURI_ok.mp told
  obtain ⟨⟨_, asked⟩, member, rfl⟩ :=
    List.mem_map.mp ((accounted.covered tokenId).mpr (Accounted.existing_iff.mpr present))
  rcases List.mem_append.mp member with opened | completed
  · have unset : s.tokenURIs _ = [] := accounted.unlabelled _ opened
    exact ⟨"", unset⟩
  · have stored : s.tokenURIs _ = asked := accounted.labelled _ completed
    obtain ⟨receipt, called, minted⟩ := List.mem_filterMap.mp completed
    obtain ⟨sender, recipient, event⟩ := mintCall_asked minted
    have executed : (deployment.run moves).current.Executes fun action => .act action ∈ moves :=
      run_executes moves _ (fun _ member => member) (by rintro _ ⟨⟩) (by rintro _ ⟨⟩)
    have move := executed receipt (completedCalls_subset _ called) _ event
    rw [stored]
    exact textual sender collection recipient asked move

/-- When no mint of a collection is left to finish, its tokens come from mints that ran to their
ends. -/
theorem completed_of_told {collection : Address} {s : NFTCollection} {tokenId : UInt256}
    {tokenURI : Bytes} (minted : deployment.Minted moves collection)
    (found : (deployment.world moves).deployed collection = some s)
    (told : s.tokenURI tokenId = .ok tokenURI) :
    (tokenId, tokenURI) ∈
      completedMints deployment.address collection (deployment.history moves) := by
  have accounted := deployment.accounted moves found
  rw [deployment.openMints_eq_nil moves collection minted] at accounted
  obtain ⟨present, rfl⟩ := NFTCollection.tokenURI_ok.mp told
  obtain ⟨⟨_, labelled⟩, member, rfl⟩ :=
    List.mem_map.mp ((accounted.covered tokenId).mpr (Accounted.existing_iff.mpr present))
  have stored : s.tokenURIs _ = labelled := accounted.labelled _ member
  rwa [stored]

/-- A token that is listed is listed for good. The URI of a finished mint is written once, and
tokens are never burnt. -/
theorem listed_kept (shows : (deployment.world moves).Shows backend)
    (settled : deployment.Settled moves) {later : List (Move Action)} {collection : Address}
    {result : NFTCollection}
    (still : (deployment.world (moves ++ later)).deployed collection = some result)
    {tokenId : UInt256} {tokenURI : String}
    (holds : backend.Holds collection tokenId.toNat tokenURI) :
    result.tokenURI tokenId = .ok (bytes tokenURI) := by
  cases found : (deployment.world moves).deployed collection with
  | none =>
    have below := (List.getElem?_eq_some_iff.mp holds.2).1
    rw [shows.absent collection found] at below
    cases below
  | some s =>
    have told := shows.uris collection s tokenId tokenURI found holds
    have minted := deployment.minted_of_returned moves collection settled.returned
    exact (uri_kept (.inl settled.saved) still
      (deployment.completed_of_told moves minted found told)).2

/-- Whatever happens on chain only adds to the lists, and what it adds can be read off the
collections afterwards. -/
theorem shows_later (shows : (deployment.world moves).Shows backend)
    (settled : deployment.Settled moves) (later : List (Move Action))
    (textual : Textual (moves ++ later)) :
    (deployment.world (moves ++ later)).Shows
      (backend.pushAll (backend.missed (deployment.world (moves ++ later)))) := by
  have keeps := deployment.world_keeps moves later (.inl settled.saved)
  have registry := deployment.registry (moves ++ later)
  have registered : ∀ {collection s}, (deployment.world (moves ++ later)).deployed collection =
      some s → collection ∈ (deployment.world (moves ++ later)).marketplace.collectionAddresses := by
    intro collection s found
    rw [registry.registered, found]
    rfl
  constructor
  · intro collection absent
    have before : (deployment.world moves).deployed collection = none := by
      by_contra present
      obtain ⟨s, found⟩ := Option.ne_none_iff_exists'.mp present
      obtain ⟨result, still, _⟩ := keeps.collections collection s found
      rw [absent] at still
      cases still
    rw [Backend.pushAll_minted, Backend.missed_absent absent, List.map_nil, List.append_nil]
    exact shows.absent collection before
  · intro collection result still
    have grown : backend.supply collection ≤ result.totalSupply.toNat := by
      cases found : (deployment.world moves).deployed collection with
      | none =>
        rw [Backend.supply, shows.absent collection found]
        exact Nat.zero_le _
      | some s =>
        obtain ⟨other, also, kept⟩ := keeps.collections collection s found
        obtain rfl := Option.some.inj (also.symm.trans still)
        rw [shows.supply collection s found]
        exact kept.supply
    have supply : backend.supply collection = (backend.minted collection).length := rfl
    rw [Backend.supply, Backend.pushAll_minted,
      Backend.missed_found registry.distinct (registered still) still, List.length_append,
      List.length_map, List.length_range']
    omega
  · intro collection result tokenId tokenURI still holds
    rcases Backend.holds_missed registry.distinct (registered still) still holds with
      before | ⟨within, rfl⟩
    · exact deployment.listed_kept moves shows settled still before
    · have present := (deployment.existing_iff (moves ++ later) still).mpr ⟨holds.1, within⟩
      have told := NFTCollection.tokenURI_ok.mpr ⟨present, rfl⟩
      obtain ⟨text, same⟩ := deployment.legible textual collection result tokenId _ still told
      exact NFTCollection.text_spec (same ▸ told)

/-- There are lists for whatever is on chain. The texts of the tokens, collection by collection
and in the order of their numbers, are such lists. -/
theorem exists_shows (textual : Textual moves) (documents : UniqueKeys.Table NFT.tokenId) :
    ∃ minted, (deployment.world moves).Shows ⟨minted, documents⟩ := by
  have genesis : (deployment.world []).Shows ⟨fun _ => [], documents⟩ := by
    constructor
    · intros
      rfl
    · intro collection s found
      cases found
    · intro collection s tokenId tokenURI found
      cases found
  have shows := deployment.shows_later [] genesis ⟨rfl, rfl⟩ moves textual
  exact ⟨_, shows.congr rfl⟩

/-- A mint of the owner for an account that is no contract puts one URI behind the others, and
takes their number plus one. -/
theorem shows_mint (shows : (deployment.world moves).Shows backend)
    {collection recipient : Address} {tokenURI : String} {s : NFTCollection} {tokenId : UInt256}
    (found : (deployment.world moves).deployed collection = some s)
    (owner : (deployment.world moves).isOutside deployment.address s.owner = true)
    (outside : (deployment.world moves).isOutside deployment.address recipient = true)
    (plain : ((deployment.world moves).accounts recipient).hasCode = false)
    (next : tokenId.toNat = s.totalSupply.toNat + 1) :
    (deployment.world (minting moves s.owner collection recipient (bytes tokenURI))).Shows
      (backend.push collection tokenURI) := by
  obtain ⟨nonzero, _, _⟩ := outside_iff.mp outside
  rw [mint_runs deployment found owner outside plain next]
  refine shows.push found rfl next ?_ ?_
  · intro other number
    obtain rfl : other = tokenId := Word.ext number
    rw [NFTCollection.tokenURI_ok]
    simp [mintedStorage, NFTCollection.setTokenURI, NFTCollection.reassign, nonzero]
  · intro other told within earlier
    have different : other ≠ tokenId := by
      rintro rfl
      omega
    rw [NFTCollection.tokenURI_ok] at earlier ⊢
    simpa [mintedStorage, NFTCollection.setTokenURI, NFTCollection.reassign, different] using earlier

end Deployment

end OpenBeach
