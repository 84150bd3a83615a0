import OpenBeach.Library.CallFrames
import OpenBeach.TokenEffects

/-!
# What a collection issues

A mint that calls its recipient has created its token but neither stored its URI nor
come to its end, and the recipient may mint again. What a collection says of its tokens
changes by the phases of its mint calls only: a call begins, finishes, or runs to its end
at once. From the two lists of the calls in progress and of the completed ones, each given
by the identifier and the URI of its token, all that the collection says can be told.
-/

namespace OpenBeach

open Function Mappings NestedCalls

/-- What a collection says of itself. The holders of tokens are left out, since trades change them
all the time. -/
structure Issue where
  owner : Address
  supply : UInt256
  existing : UInt256 → Bool
  tokenURIs : UInt256 → Bytes

/-- What a collection says of itself, of all that is in its storage. Whether a token exists is all
that is kept of its holder. -/
def NFTCollection.issue (s : NFTCollection) : Issue where
  owner := s.owner
  supply := s.tokenIds
  existing tokenId := s.owners tokenId ≠ 0
  tokenURIs := s.tokenURIs

/-- A new token. It is as yet without a URI. -/
def Issue.mint (issue : Issue) (newTokenId : UInt256) : Issue :=
  { issue with supply := newTokenId, existing := update issue.existing newTokenId true }

/-- A token gets its URI. Whatever was stored for it before is overwritten. -/
def Issue.label (issue : Issue) (tokenId : UInt256) (tokenURI : Bytes) : Issue :=
  { issue with tokenURIs := update issue.tokenURIs tokenId tokenURI }

/-- A phase of a mint call, or a new owner of the collection; zero stands for none. -/
inductive IssueEvent where
  | minting (phase : CallEvent (UInt256 × Bytes)) : IssueEvent
  | handed (newOwner : Address) : IssueEvent
deriving DecidableEq

/-- The part that an event plays in a mint call, if it plays one. Handing the collection over
plays none. -/
def IssueEvent.phase : IssueEvent → Option (CallEvent (UInt256 × Bytes))
  | .minting phase => some phase
  | .handed _ => none

/-- The steps of a collection, with the facts their calls checked. A mint that was interrupted
begins in one step and finishes in another. -/
inductive IssueStep (issue : Issue) : Option IssueEvent → Issue → Prop where
  | idle : IssueStep issue none issue
  | begun (tokenId : UInt256) (tokenURI : Bytes)
      (next : tokenId.toNat = issue.supply.toNat + 1) (fresh : issue.existing tokenId = false) :
      IssueStep issue (some (.minting (.begun (tokenId, tokenURI)))) (issue.mint tokenId)
  | finished (tokenId : UInt256) (tokenURI : Bytes) :
      IssueStep issue (some (.minting (.finished (tokenId, tokenURI))))
        (issue.label tokenId tokenURI)
  | whole (tokenId : UInt256) (tokenURI : Bytes)
      (next : tokenId.toNat = issue.supply.toNat + 1) (fresh : issue.existing tokenId = false) :
      IssueStep issue (some (.minting (.whole (tokenId, tokenURI))))
        ((issue.mint tokenId).label tokenId tokenURI)
  | handed (newOwner : Address) :
      IssueStep issue (some (.handed newOwner)) { issue with owner := newOwner }

namespace NFTCollection

variable {s after : NFTCollection}

/-- Approving, or anything else that is not about existence, says nothing new. Only the four
things that are compared matter. -/
theorem issue_congr (owner : after.owner = s.owner) (tokenIds : after.tokenIds = s.tokenIds)
    (existing : ∀ tokenId, after.owners tokenId = 0 ↔ s.owners tokenId = 0)
    (tokenURIs : after.tokenURIs = s.tokenURIs) : after.issue = s.issue := by
  simp [issue, owner, tokenIds, existing, tokenURIs]

/-- An existing token that changes hands exists as before. It would not, if it were handed to
zero. -/
theorem reassign_issue {tokenId : UInt256} {target : Address} (given : target ≠ 0)
    (existing : s.owners tokenId ≠ 0) : (s.reassign tokenId target).issue = s.issue := by
  refine issue_congr rfl rfl ?_ rfl
  intro tested
  by_cases same : tested = tokenId
  · subst same
    simp [reassign, given, existing]
  · simp [reassign, same]

/-- A transfer changes who holds a token, and nothing of what the collection says of itself: no
token appears, disappears or changes its URI. -/
theorem transferFrom_issue {sender source target : Address} {tokenId : UInt256}
    (nonzero : source ≠ 0) (moved : transferFrom sender source target tokenId s = .ok after) :
    after.issue = s.issue := by
  obtain ⟨given, _, owned, rfl⟩ := transferFrom_ok.mp moved
  exact reassign_issue given (owned ▸ nonzero)

/-- An account that nobody approved cannot move a token that does not exist. So whatever moves is
a token that exists. -/
theorem outside_transfer_issue {this sender source target : Address} {tokenId : UInt256}
    (unapproved : s.Unapproved this) (nonzero : sender ≠ 0) (other : sender ≠ this)
    (moved : transferFrom sender source target tokenId s = .ok after) : after.issue = s.issue := by
  obtain ⟨given, authorised, _, rfl⟩ := transferFrom_ok.mp moved
  have existing := (unapproved.unauthorised nonzero other tokenId (authorised nonzero)).2
  exact reassign_issue given existing

/-- Minting issues the next identifier. The identifier was not in use, since identifiers only go
up. -/
theorem beginMint_issue {sender recipient : Address} {newTokenId : UInt256}
    (begun : beginMint sender recipient s = .ok (newTokenId, after)) :
    newTokenId.toNat = s.issue.supply.toNat + 1 ∧ s.issue.existing newTokenId = false ∧
      after.issue = s.issue.mint newTokenId := by
  obtain ⟨_, next, given, absent, rfl⟩ := beginMint_ok.mp begun
  refine ⟨next, by simp [issue, absent], ?_⟩
  have existing : (fun tested => decide
      ((({ s with tokenIds := newTokenId } : NFTCollection).reassign newTokenId recipient).owners
        tested ≠ 0)) =
      update (fun tested => decide (s.owners tested ≠ 0)) newTokenId true := by
    funext tested
    by_cases same : tested = newTokenId
    · subst same
      simp [reassign, given]
    · simp [reassign, same]
  simp only [issue, existing, Issue.mint]
  rfl

/-- Storing the URI labels the token. It is so by definition. -/
theorem setTokenURI_issue (s : NFTCollection) (tokenId : UInt256) (tokenURI : Bytes) :
    (s.setTokenURI tokenId tokenURI).issue = s.issue.label tokenId tokenURI :=
  rfl

end NFTCollection

/-- The mint calls of a collection, against what it says. A token in progress exists, but
without its URI. -/
structure Accounted (mints completed : List (UInt256 × Bytes)) (issue : Issue) : Prop where
  numbered : ∀ tokenId, issue.existing tokenId = true ↔
    1 ≤ tokenId.toNat ∧ tokenId.toNat ≤ issue.supply.toNat
  distinct : ((mints ++ completed).map Prod.fst).Nodup
  covered : ∀ tokenId, tokenId ∈ (mints ++ completed).map Prod.fst ↔ issue.existing tokenId = true
  blank : ∀ tokenId, issue.existing tokenId = false → issue.tokenURIs tokenId = []
  unlabelled : ∀ mint ∈ mints, issue.tokenURIs mint.1 = []
  labelled : ∀ mint ∈ completed, issue.tokenURIs mint.1 = mint.2

namespace Accounted

variable {mints completed : List (UInt256 × Bytes)} {issue : Issue}

/-- A new collection has no tokens. No mint has begun either. -/
theorem created (owner : Address) : Accounted [] [] ⟨owner, 0, fun _ => false, fun _ => []⟩ where
  numbered tokenId := by
    simp only [Bool.false_eq_true, Word.toNat_zero, false_iff]
    omega
  distinct := List.nodup_nil
  covered _ := by simp
  blank _ _ := rfl
  unlabelled _ _ := rfl
  labelled _ impossible := by cases impossible

/-- A new token takes the next identifier. It joins the mints in progress, with the URI it is to
have. -/
theorem begin (accounted : Accounted mints completed issue) {tokenId : UInt256} (tokenURI : Bytes)
    (next : tokenId.toNat = issue.supply.toNat + 1) (fresh : issue.existing tokenId = false) :
    Accounted ((tokenId, tokenURI) :: mints) completed (issue.mint tokenId) where
  numbered tested := by
    by_cases same : tested = tokenId
    · subst same
      simp only [Issue.mint, update_self, true_iff]
      omega
    · have different : tested.toNat ≠ tokenId.toNat := fun equal => same (Word.ext equal)
      simp only [Issue.mint, update_of_ne same, accounted.numbered]
      omega
  distinct := by
    have unused : tokenId ∉ (mints ++ completed).map Prod.fst := by
      rw [accounted.covered, fresh]
      decide
    exact List.nodup_cons.mpr ⟨unused, accounted.distinct⟩
  covered tested := by
    by_cases same : tested = tokenId
    · subst same
      simp [Issue.mint]
    · rw [List.cons_append, List.map_cons, List.mem_cons, accounted.covered]
      simp [Issue.mint, same]
  blank tested absent := by
    by_cases same : tested = tokenId
    · subst same
      exact accounted.blank tested fresh
    · apply accounted.blank tested
      simpa [Issue.mint, same] using absent
  unlabelled mint member := by
    rcases List.mem_cons.mp member with rfl | earlier
    · exact accounted.blank tokenId fresh
    · exact accounted.unlabelled mint earlier
  labelled := accounted.labelled

/-- The innermost mint stores its URI. It joins the completed ones, and its token has the URI from
then on. -/
theorem finish {tokenId : UInt256} {tokenURI : Bytes}
    (accounted : Accounted ((tokenId, tokenURI) :: mints) completed issue) :
    Accounted mints ((tokenId, tokenURI) :: completed) (issue.label tokenId tokenURI) := by
  have moved : (mints ++ (tokenId, tokenURI) :: completed).Perm
      ((tokenId, tokenURI) :: (mints ++ completed)) := List.perm_middle
  have distinct := accounted.distinct
  rw [List.cons_append, List.map_cons, List.nodup_cons] at distinct
  have other : ∀ mint ∈ mints ++ completed, mint.1 ≠ tokenId := by
    intro mint member same
    have used : mint.1 ∈ (mints ++ completed).map Prod.fst := List.mem_map_of_mem member
    exact distinct.1 (same ▸ used)
  exact
    { numbered := accounted.numbered
      distinct := ((moved.map Prod.fst).nodup_iff).mpr accounted.distinct
      covered := fun tested => ((moved.map Prod.fst).mem_iff).trans (accounted.covered tested)
      blank := by
        intro tested absent
        have existing := (accounted.covered tokenId).mp (by simp)
        have different : tested ≠ tokenId := by
          rintro rfl
          exact absurd (existing.symm.trans absent) (by decide)
        simp only [Issue.label, update_of_ne different]
        exact accounted.blank tested absent
      unlabelled := by
        intro mint member
        have different := other mint (List.mem_append_left _ member)
        simp only [Issue.label, update_of_ne different]
        exact accounted.unlabelled mint (List.mem_cons_of_mem _ member)
      labelled := by
        intro mint member
        rcases List.mem_cons.mp member with rfl | earlier
        · exact update_self _ _ _
        · have different := other mint (List.mem_append_right _ earlier)
          simp only [Issue.label, update_of_ne different]
          exact accounted.labelled mint earlier }

/-- Handing the collection over mints nothing. All mints are accounted for as before. -/
theorem handed (accounted : Accounted mints completed issue) (owner : Address) :
    Accounted mints completed { issue with owner } :=
  ⟨accounted.numbered, accounted.distinct, accounted.covered, accounted.blank,
    accounted.unlabelled, accounted.labelled⟩

/-- Each identifier belongs to one mint call. So a token has one URI, though others may have been
asked for meanwhile. -/
theorem unique (accounted : Accounted mints completed issue) {tokenId : UInt256}
    {tokenURI other : Bytes} (member : (tokenId, tokenURI) ∈ mints ++ completed)
    (again : (tokenId, other) ∈ mints ++ completed) : tokenURI = other :=
  congrArg Prod.snd (List.inj_on_of_nodup_map accounted.distinct member again rfl)

end Accounted

/-- The step lemma for mint calls. What is booked of the call and what is stored of the token go
together. -/
theorem IssueStep.accounted {issue after : Issue} {event : Option IssueEvent}
    {mints completed nowMints nowCompleted : List (UInt256 × Bytes)}
    (step : IssueStep issue event after)
    (booked : Booked mints completed (event.bind IssueEvent.phase) nowMints nowCompleted)
    (accounted : Accounted mints completed issue) : Accounted nowMints nowCompleted after := by
  cases step with
  | idle =>
    cases booked
    exact accounted
  | begun tokenId tokenURI next fresh =>
    cases booked
    exact accounted.begin tokenURI next fresh
  | finished tokenId tokenURI =>
    cases booked with
    | finished _ outer innermost =>
      subst innermost
      exact accounted.finish
  | whole tokenId tokenURI next fresh =>
    cases booked
    exact (accounted.begin tokenURI next fresh).finish
  | handed newOwner =>
    cases booked
    exact accounted.handed newOwner

/-- The mint calls that ran to their end, against the collection's storage. Each returned
an identifier of its own, whose URI is the one it was called with. -/
structure NFTCollection.MintsExact (s : NFTCollection) (completed : List (UInt256 × Bytes)) :
    Prop where
  distinct : (completed.map Prod.fst).Nodup
  stored : ∀ tokenId tokenURI, (tokenId, tokenURI) ∈ completed →
    s.owners tokenId ≠ 0 ∧ s.tokenURI tokenId = .ok tokenURI
  numbered : ∀ tokenId, s.owners tokenId ≠ 0 ↔
    1 ≤ tokenId.toNat ∧ tokenId.toNat ≤ s.totalSupply.toNat

namespace Accounted

variable {s : NFTCollection} {mints completed : List (UInt256 × Bytes)}

/-- A token exists if somebody holds it. Zero holds nothing. -/
theorem existing_iff {tokenId : UInt256} : s.issue.existing tokenId = true ↔ s.owners tokenId ≠ 0 :=
  decide_eq_true_iff

/-- A completed mint call left its token with the URI it was called with. No later call can have
changed it, since numbers are not given twice. -/
theorem stored (accounted : Accounted mints completed s.issue) {tokenId : UInt256}
    {tokenURI : Bytes} (member : (tokenId, tokenURI) ∈ completed) :
    s.owners tokenId ≠ 0 ∧ s.tokenURI tokenId = .ok tokenURI := by
  have used : tokenId ∈ (mints ++ completed).map Prod.fst :=
    List.mem_map.mpr ⟨(tokenId, tokenURI), List.mem_append_right _ member, rfl⟩
  have present := existing_iff.mp ((accounted.covered tokenId).mp used)
  have labelled : s.tokenURIs tokenId = tokenURI := accounted.labelled _ member
  refine ⟨present, ?_⟩
  simp [NFTCollection.tokenURI, NFTCollection.requireOwned, present, NFTCollection.baseURIHook,
    labelled]

/-- From the account of the mints: the numbers that calls returned are the tokens of those calls,
each with a URI of its own, up to the mints that are still in progress. -/
theorem exact (accounted : Accounted mints completed s.issue) : s.MintsExact completed where
  distinct := by
    have distinct := accounted.distinct
    rw [List.map_append] at distinct
    exact distinct.of_append_right
  stored _ _ member := accounted.stored member
  numbered tokenId := by
    rw [← existing_iff]
    exact accounted.numbered tokenId

/-- Without a mint in progress every token was returned by a call. The numbers in between are all
taken. -/
theorem returned (accounted : Accounted [] completed s.issue) {tokenId : UInt256}
    (present : s.owners tokenId ≠ 0) : ∃ tokenURI, (tokenId, tokenURI) ∈ completed := by
  have used := (accounted.covered tokenId).mpr (existing_iff.mpr present)
  obtain ⟨⟨_, tokenURI⟩, member, rfl⟩ := List.mem_map.mp used
  exact ⟨tokenURI, member⟩

end Accounted

end OpenBeach
