import Hurd.Libpager.Orderly
import Hurd.Libpager.Spot

/-!
# Who is not on ACCESSLIST does not have the page

`Link.Sound` ties what a kernel has of a page, and the messages about it that are under way,
to what the pager has recorded of the kernel.  A client leaves ACCESSLIST when it gives the
page back, asks for it again, completes the last lock or dies; the order of the queues makes
sure that in each of these moments it has no copy and none is on its way.  For a completed
lock this needs `Link.Watched`: while others wait, the last thing a holder is sent is a flush.

The invariant is lost when an unlock is queued beside the requests, and when a request is
answered twice (`Page.Unbalances`).
-/

namespace Hurd.Libpager

def Message.isAnswer : Message → Bool
  | .supply .. => true
  | .error => true
  | .flush => false
  | .grant => false

def Message.isSupply : Message → Bool
  | .supply .. => true
  | .error => false
  | .flush => false
  | .grant => false

def Report.isRequest : Report → Bool
  | .request _ => true
  | .unlock => false
  | .giveBack .. => false
  | .lockCompleted => false

/-- `later` may stand behind a report about the same page. -/
def Report.Before : Report → Report → Prop
  | .request _, later => later = .lockCompleted
  | .giveBack .., later => later = .lockCompleted ∨ later.isRequest = true
  | .unlock, later => later ≠ .unlock
  | .lockCompleted, _ => True

/-- No page is among the messages. -/
def NoSupply (messages : List Message) : Prop :=
  ∀ message ∈ messages, message.isSupply = false

theorem NoSupply.append {first second : List Message} (firstNone : NoSupply first)
    (secondNone : NoSupply second) : NoSupply (first ++ second) := by
  intro message messageMem
  rcases List.mem_append.mp messageMem with inFirst | inSecond
  · exact firstNone message inFirst
  · exact secondNone message inSecond

theorem NoSupply.tail {message : Message} {rest : List Message}
    (noSupply : NoSupply (message :: rest)) : NoSupply rest :=
  fun other otherMem => noSupply other (List.mem_cons_of_mem _ otherMem)

theorem noSupply_of_countP {messages : List Message}
    (none : messages.countP Message.isAnswer = 0) : NoSupply messages := by
  intro message messageMem
  have notAnswer := List.countP_eq_zero.mp none message messageMem
  cases message with
  | supply => exact absurd rfl notAnswer
  | error => rfl
  | flush => rfl
  | grant => rfl

namespace Link

/-- The messages under way to the kernel, with those of the running handler. -/
def flight (link : Link) (page : Page) (client : MachPort) : List Message :=
  link.down ++ page.told client

/--
What the kernel has and what is under way fits what the page has recorded of it.  `debt` is
one while a request of the client is being handled that has not been queued or answered.
-/
structure Sound (page : Page) (client : MachPort) (debt : ℕ) (link : Link) : Prop where
  asked : debt + link.up.countP Report.isRequest +
      (waitingClients page.entry.waitlist).count client +
      (link.flight page client).countP Message.isAnswer ≤
    if link.page.pending = .request then 1 else 0
  bare : link.page.pending = .request → link.page.copy = none
  ordered : link.up.Pairwise Report.Before
  given : ∀ version dirty, .giveBack version dirty ∈ link.up →
    client ∈ page.entry.accesslist ∧ link.page.copy = none ∧ NoSupply (link.flight page client) ∧
      client ∉ waitingClients page.entry.waitlist
  unlocks : .unlock ∈ link.up →
    client ∈ page.entry.accesslist ∧ (link.page.copy ≠ none → link.page.pending = .unlock) ∧
      NoSupply (link.flight page client) ∧ client ∉ waitingClients page.entry.waitlist ∧
      .grant ∉ link.flight page client
  grants : ∀ before after, link.flight page client = before ++ .grant :: after →
    NoSupply before ∧ .grant ∉ after ∧ (link.page.copy ≠ none → link.page.pending = .unlock)
  listed : link.page.copy ≠ none ∨ ¬NoSupply (link.flight page client) →
    client ∈ page.entry.accesslist
  counted : page.lockCount client =
    (link.flight page client).count .flush + link.up.count .lockCompleted

variable {page next : Page} {client : MachPort} {debt : ℕ} {link : Link}

section Kernel

/-- A kernel that has no unanswered request has none under way. -/
theorem Sound.nothing_asked (sound : link.Sound page client debt)
    (notAsking : link.page.pending ≠ .request) :
    debt = 0 ∧ link.up.countP Report.isRequest = 0 ∧
      client ∉ waitingClients page.entry.waitlist ∧
      (link.flight page client).countP Message.isAnswer = 0 := by
  have asked := sound.asked
  rw [if_neg notAsking] at asked
  refine ⟨by omega, by omega, ?_, by omega⟩
  rw [← List.count_eq_zero]
  omega

/-- A kernel that holds a page has no request under way. -/
theorem Sound.not_asking (sound : link.Sound page client debt) (holds : link.page.copy ≠ none) :
    link.page.pending ≠ .request :=
  fun asking => holds (sound.bare asking)

theorem not_isRequest_of_countP {reports : List Report}
    (none : reports.countP Report.isRequest = 0) {report : Report} (reportMem : report ∈ reports) :
    report.isRequest = false :=
  Bool.eq_false_iff.mpr (List.countP_eq_zero.mp none report reportMem)

theorem Sound.request (sound : link.Sound page client debt) (write : Bool)
    (noCopy : link.page.copy = none) (notPending : link.page.pending = .none) :
    ({ link with page := { link.page with pending := .request },
                 up := link.up ++ [.request write] } : Link).Sound page client debt := by
  rcases sound.nothing_asked (by rw [notPending]; exact nofun) with
    ⟨noDebt, noRequest, notWaiting, noAnswer⟩
  have onUp : ∀ {report : Report}, report.isRequest = false → report ∈ link.up ++ [.request write] →
      report ∈ link.up := by
    intro report notRequest reportMem
    rcases List.mem_append.mp reportMem with before | now
    · exact before
    · rw [List.mem_singleton.mp now] at notRequest
      cases notRequest
  refine ⟨?_, fun _ => noCopy, ?_, ?_, ?_, ?_, sound.listed, ?_⟩
  · have noWait : (waitingClients page.entry.waitlist).count client = 0 :=
      List.count_eq_zero.mpr notWaiting
    simp only [flight] at noAnswer ⊢
    simp [noDebt, noRequest, noWait, noAnswer, Report.isRequest]
  · rw [List.pairwise_append]
    refine ⟨sound.ordered, List.pairwise_singleton _ _, ?_⟩
    intro report reportMem later laterMem
    rw [List.mem_singleton.mp laterMem]
    have notRequest := not_isRequest_of_countP noRequest reportMem
    cases report with
    | request => cases notRequest
    | giveBack => exact Or.inr rfl
    | unlock => exact nofun
    | lockCompleted => trivial
  · exact fun version dirty reportMem => sound.given version dirty (onUp rfl reportMem)
  · intro reportMem
    rcases sound.unlocks (onUp rfl reportMem) with ⟨isListed, _, rest⟩
    exact ⟨isListed, fun holds => absurd noCopy holds, rest⟩
  · intro before after split
    rcases sound.grants before after split with ⟨noSupply, noGrant, _⟩
    exact ⟨noSupply, noGrant, fun holds => absurd noCopy holds⟩
  · rw [List.count_append]
    exact sound.counted

theorem Sound.unlock (sound : link.Sound page client debt) (holds : link.page.copy ≠ none)
    (notPending : link.page.pending = .none) :
    ({ link with page := { link.page with pending := .unlock },
                 up := link.up ++ [.unlock] } : Link).Sound page client debt := by
  have notAsking : link.page.pending ≠ .request := by
    rw [notPending]
    exact nofun
  rcases sound.nothing_asked notAsking with ⟨noDebt, noRequest, notWaiting, noAnswer⟩
  have notUnlocking : .unlock ∉ link.up := by
    intro unlocking
    have pending := (sound.unlocks unlocking).2.1 holds
    rw [notPending] at pending
    cases pending
  have notGranted : .grant ∉ link.flight page client := by
    intro granted
    rcases List.append_of_mem granted with ⟨before, after, split⟩
    have pending := (sound.grants before after split).2.2 holds
    rw [notPending] at pending
    cases pending
  have notGiven : ∀ version dirty, .giveBack version dirty ∉ link.up :=
    fun version dirty given => holds (sound.given version dirty given).2.1
  refine ⟨?_, nofun, ?_, ?_, ?_, ?_, sound.listed, ?_⟩
  · have asked := sound.asked
    rw [if_neg notAsking] at asked
    rw [if_neg (by exact nofun), List.countP_append]
    exact asked
  · rw [List.pairwise_append]
    refine ⟨sound.ordered, List.pairwise_singleton _ _, ?_⟩
    intro report reportMem later laterMem
    rw [List.mem_singleton.mp laterMem]
    have notRequest := not_isRequest_of_countP noRequest reportMem
    cases report with
    | request => cases notRequest
    | giveBack version dirty => exact absurd reportMem (notGiven version dirty)
    | unlock => exact absurd reportMem notUnlocking
    | lockCompleted => trivial
  · intro version dirty reportMem
    rcases List.mem_append.mp reportMem with before | now
    · exact absurd before (notGiven version dirty)
    · cases List.mem_singleton.mp now
  · exact fun _ => ⟨sound.listed (Or.inl holds), fun _ => rfl, noSupply_of_countP noAnswer,
      notWaiting, notGranted⟩
  · intro before after split
    refine absurd ?_ notGranted
    rw [show link.flight page client = before ++ .grant :: after from split]
    exact List.mem_append_right _ List.mem_cons_self
  · rw [List.count_append]
    exact sound.counted

/-- A kernel changes its copy and keeps it. -/
theorem Sound.modify (sound : link.Sound page client debt) (copy : Copy)
    (holds : link.page.copy ≠ none) :
    ({ link with page := { link.page with copy := some copy } } : Link).Sound page client
      debt where
  asked := sound.asked
  bare asking := absurd (sound.bare asking) holds
  ordered := sound.ordered
  given version dirty given := absurd (sound.given version dirty given).2.1 holds
  unlocks unlocking := by
    rcases sound.unlocks unlocking with ⟨isListed, pending, rest⟩
    exact ⟨isListed, fun _ => pending holds, rest⟩
  grants before after split := by
    rcases sound.grants before after split with ⟨noSupply, noGrant, pending⟩
    exact ⟨noSupply, noGrant, fun _ => pending holds⟩
  listed _ := sound.listed (Or.inl holds)
  counted := sound.counted

/-- A kernel loses its copy without a word. -/
theorem Sound.lose (sound : link.Sound page client debt) :
    ({ link with page := { link.page with copy := none } } : Link).Sound page client debt where
  asked := sound.asked
  bare _ := rfl
  ordered := sound.ordered
  given version dirty given := by
    rcases sound.given version dirty given with ⟨isListed, _, rest⟩
    exact ⟨isListed, rfl, rest⟩
  unlocks unlocking := by
    rcases sound.unlocks unlocking with ⟨isListed, _, rest⟩
    exact ⟨isListed, fun holds => absurd rfl holds, rest⟩
  grants before after split := by
    rcases sound.grants before after split with ⟨noSupply, noGrant, _⟩
    exact ⟨noSupply, noGrant, fun holds => absurd rfl holds⟩
  listed holds := sound.listed (Or.inr (holds.resolve_left fun lost => lost rfl))
  counted := sound.counted

/-- A kernel drops its copy, and gives it back when it is dirty or precious. -/
theorem Sound.giveBack (sound : link.Sound page client debt) :
    ({ link with page := { link.page with copy := none },
                 up := link.up ++ link.page.giveBack } : Link).Sound page client debt := by
  by_cases nothing : link.page.giveBack = []
  · rw [nothing, List.append_nil]
    exact sound.lose
  have holds : link.page.copy ≠ none := by
    intro noCopy
    simp [KernelPage.giveBack, noCopy] at nothing
  obtain ⟨version, dirty, givesBack⟩ : ∃ version dirty,
      link.page.giveBack = [.giveBack version dirty] := by
    cases copy? : link.page.copy with
    | none => exact absurd copy? holds
    | some copy =>
        simp only [KernelPage.giveBack, copy?, ite_eq_right_iff, List.cons_ne_self, imp_false,
          Classical.not_not] at nothing ⊢
        rw [if_pos nothing]
        exact ⟨_, _, rfl⟩
  rcases sound.nothing_asked (sound.not_asking holds) with ⟨noDebt, noRequest, notWaiting, noAnswer⟩
  have notGiven : ∀ version dirty, .giveBack version dirty ∉ link.up :=
    fun version dirty given => holds (sound.given version dirty given).2.1
  have lost := sound.lose
  rw [givesBack]
  refine ⟨?_, lost.bare, ?_, ?_, ?_, lost.grants, lost.listed, ?_⟩
  · rw [List.countP_append]
    exact lost.asked
  · rw [List.pairwise_append]
    refine ⟨sound.ordered, List.pairwise_singleton _ _, ?_⟩
    intro report reportMem later laterMem
    rw [List.mem_singleton.mp laterMem]
    have notRequest := not_isRequest_of_countP noRequest reportMem
    cases report with
    | request => cases notRequest
    | giveBack version dirty => exact absurd reportMem (notGiven version dirty)
    | unlock => exact nofun
    | lockCompleted => trivial
  · exact fun _ _ _ => ⟨sound.listed (Or.inl holds), rfl, noSupply_of_countP noAnswer, notWaiting⟩
  · intro reportMem
    rcases List.mem_append.mp reportMem with before | now
    · exact lost.unlocks before
    · cases List.mem_singleton.mp now
  · rw [List.count_append]
    exact lost.counted

/-- A kernel without a copy no longer waits for it to be unlocked. -/
theorem Sound.settle (sound : link.Sound page client debt) (noCopy : link.page.copy = none) :
    ({ link with page := { link.page with pending := link.page.pending.settle .unlock } } :
      Link).Sound page client debt := by
  have sameAsking : link.page.pending.settle .unlock = .request ↔
      link.page.pending = .request := by
    cases link.page.pending <;> decide
  refine ⟨?_, fun _ => noCopy, sound.ordered, sound.given, ?_, ?_, sound.listed, sound.counted⟩
  · simp only [sameAsking]
    exact sound.asked
  · intro unlocking
    rcases sound.unlocks unlocking with ⟨isListed, _, rest⟩
    exact ⟨isListed, fun holds => absurd noCopy holds, rest⟩
  · intro before after split
    rcases sound.grants before after split with ⟨noSupply, noGrant, _⟩
    exact ⟨noSupply, noGrant, fun holds => absurd noCopy holds⟩

theorem Sound.evict (sound : link.Sound page client debt) :
    ({ link with page := { copy := none, pending := link.page.pending.settle .unlock },
                 up := link.up ++ link.page.giveBack } : Link).Sound page client debt :=
  sound.giveBack.settle rfl

theorem flight_cons {message : Message} {rest : List Message}
    (first : link.down = message :: rest) :
    link.flight page client = message :: ({ link with down := rest } : Link).flight page client := by
  simp [flight, first]

/-- A kernel completes a flush. -/
theorem Sound.completeLock {rest : List Message} (sound : link.Sound page client debt)
    (first : link.down = .flush :: rest) :
    ({ link with down := rest, up := link.up ++ [.lockCompleted] } : Link).Sound page client
      debt := by
  have flightEq : link.flight page client = .flush :: _ := flight_cons first
  have onUp : ∀ {report : Report}, report ≠ .lockCompleted →
      report ∈ link.up ++ [.lockCompleted] → report ∈ link.up := by
    intro report notCompletion reportMem
    rcases List.mem_append.mp reportMem with before | now
    · exact before
    · exact absurd (List.mem_singleton.mp now) notCompletion
  refine ⟨?_, sound.bare, ?_, ?_, ?_, ?_, ?_, ?_⟩
  · have asked := sound.asked
    rw [flightEq] at asked
    rw [List.countP_append]
    exact asked
  · rw [List.pairwise_append]
    refine ⟨sound.ordered, List.pairwise_singleton _ _, ?_⟩
    intro report _ later laterMem
    rw [List.mem_singleton.mp laterMem]
    cases report with
    | request => rfl
    | giveBack => exact Or.inl rfl
    | unlock => exact nofun
    | lockCompleted => trivial
  · intro version dirty reportMem
    rcases sound.given version dirty (onUp nofun reportMem) with
      ⟨isListed, noCopy, noSupply, notWaiting⟩
    rw [flightEq] at noSupply
    exact ⟨isListed, noCopy, noSupply.tail, notWaiting⟩
  · intro reportMem
    rcases sound.unlocks (onUp nofun reportMem) with
      ⟨isListed, pending, noSupply, notWaiting, noGrant⟩
    rw [flightEq] at noSupply noGrant
    exact ⟨isListed, pending, noSupply.tail, notWaiting,
      fun granted => noGrant (List.mem_cons_of_mem _ granted)⟩
  · intro before after split
    obtain ⟨noSupply, rest⟩ := sound.grants (.flush :: before) after (by
      rw [flightEq, List.cons_append]
      exact congrArg _ split)
    exact ⟨noSupply.tail, rest⟩
  · rintro (holds | supplied)
    · exact sound.listed (Or.inl holds)
    · refine sound.listed (Or.inr fun noSupply => supplied ?_)
      rw [flightEq] at noSupply
      exact noSupply.tail
  · have counted := sound.counted
    rw [flightEq, List.count_cons_self] at counted
    rw [List.count_append, List.count_singleton_self, counted]
    exact (Nat.add_right_comm _ _ _).trans (Nat.add_assoc _ _ _)

/-- A kernel gets a page. -/
theorem Sound.receiveSupply {data : ℕ} {write precious : Bool} {rest : List Message}
    (sound : link.Sound page client debt) (first : link.down = .supply data write precious :: rest)
    (copy : Copy) :
    ({ link with
        down := rest
        page := { copy := some copy, pending := link.page.pending.settle .request } } :
      Link).Sound page client debt := by
  have flightEq : link.flight page client = .supply data write precious :: _ := flight_cons first
  have supplied : ¬NoSupply (link.flight page client) := by
    intro noSupply
    rw [flightEq] at noSupply
    cases noSupply _ List.mem_cons_self
  have asked := sound.asked
  rw [flightEq, List.countP_cons_of_pos rfl] at asked
  have asking : link.page.pending = .request := by
    by_contra notAsking
    rw [if_neg notAsking] at asked
    omega
  rw [if_pos asking] at asked
  have settled : link.page.pending.settle .request = .none := by
    rw [asking]
    rfl
  refine ⟨?_, ?_, sound.ordered, ?_, ?_, ?_, ?_, ?_⟩
  · simp only [settled]
    rw [if_neg nofun]
    exact Nat.le_of_succ_le_succ asked
  · intro stillAsking
    rw [show link.page.pending.settle .request = _ from stillAsking] at settled
    cases settled
  · exact fun version dirty given => absurd (sound.given version dirty given).2.2.1 supplied
  · exact fun unlocking => absurd (sound.unlocks unlocking).2.2.1 supplied
  · intro before after split
    obtain ⟨noSupply, _⟩ := sound.grants (.supply data write precious :: before) after (by
      rw [flightEq, List.cons_append]
      exact congrArg _ split)
    cases noSupply _ List.mem_cons_self
  · exact fun _ => sound.listed (Or.inr supplied)
  · have counted := sound.counted
    rw [flightEq, List.count_cons_of_ne (show Message.supply .. ≠ .flush from nofun)] at counted
    exact counted

/-- A kernel is told of an error. -/
theorem Sound.receiveError {rest : List Message} (sound : link.Sound page client debt)
    (first : link.down = .error :: rest) :
    ({ link with
        down := rest
        page := { link.page with pending := link.page.pending.settle .request } } :
      Link).Sound page client debt := by
  have flightEq : link.flight page client = .error :: _ := flight_cons first
  have asked := sound.asked
  rw [flightEq, List.countP_cons_of_pos rfl] at asked
  have asking : link.page.pending = .request := by
    by_contra notAsking
    rw [if_neg notAsking] at asked
    omega
  rw [if_pos asking] at asked
  have noCopy := sound.bare asking
  have settled : link.page.pending.settle .request = .none := by
    rw [asking]
    rfl
  refine ⟨?_, fun _ => noCopy, sound.ordered, ?_, ?_, ?_, ?_, ?_⟩
  · simp only [settled]
    rw [if_neg nofun]
    exact Nat.le_of_succ_le_succ asked
  · intro version dirty given
    rcases sound.given version dirty given with ⟨isListed, noCopy, noSupply, notWaiting⟩
    rw [flightEq] at noSupply
    exact ⟨isListed, noCopy, noSupply.tail, notWaiting⟩
  · intro unlocking
    rcases sound.unlocks unlocking with ⟨isListed, _, noSupply, notWaiting, noGrant⟩
    rw [flightEq] at noSupply noGrant
    exact ⟨isListed, fun holds => absurd noCopy holds, noSupply.tail, notWaiting,
      fun granted => noGrant (List.mem_cons_of_mem _ granted)⟩
  · intro before after split
    obtain ⟨noSupply, noGrant, _⟩ := sound.grants (.error :: before) after (by
      rw [flightEq, List.cons_append]
      exact congrArg _ split)
    exact ⟨noSupply.tail, noGrant, fun holds => absurd noCopy holds⟩
  · rintro (holds | supplied)
    · exact absurd noCopy holds
    · refine sound.listed (Or.inr fun noSupply => supplied ?_)
      rw [flightEq] at noSupply
      exact noSupply.tail
  · have counted := sound.counted
    rw [flightEq, List.count_cons_of_ne (show Message.error ≠ .flush from nofun)] at counted
    exact counted

/-- A kernel is granted write access. -/
theorem Sound.receiveGrant {rest : List Message} (sound : link.Sound page client debt)
    (first : link.down = .grant :: rest) :
    ({ link with
        down := rest
        page := {
          copy := link.page.copy.map fun copy => { copy with write := true }
          pending := link.page.pending.settle .unlock } } : Link).Sound page client debt := by
  have flightEq : link.flight page client = .grant :: _ := flight_cons first
  have sameAsking : link.page.pending.settle .unlock = .request ↔
      link.page.pending = .request := by
    cases link.page.pending <;> decide
  have sameCopy : (link.page.copy.map fun copy => { copy with write := true }) = none ↔
      link.page.copy = none := Option.map_eq_none_iff
  rcases sound.grants [] _ flightEq with ⟨-, noMoreGrant, -⟩
  refine ⟨?_, ?_, sound.ordered, ?_, ?_, ?_, ?_, ?_⟩
  · have asked := sound.asked
    rw [flightEq] at asked
    simp only [sameAsking]
    exact asked
  · exact fun asking => sameCopy.mpr (sound.bare (sameAsking.mp asking))
  · intro version dirty given
    rcases sound.given version dirty given with ⟨isListed, noCopy, noSupply, notWaiting⟩
    rw [flightEq] at noSupply
    exact ⟨isListed, sameCopy.mpr noCopy, noSupply.tail, notWaiting⟩
  · intro unlocking
    rcases sound.unlocks unlocking with ⟨-, -, -, -, noGrant⟩
    rw [flightEq] at noGrant
    exact absurd List.mem_cons_self noGrant
  · intro before after split
    refine absurd ?_ noMoreGrant
    have granted : Message.grant ∈ before ++ .grant :: after :=
      List.mem_append_right _ List.mem_cons_self
    rw [← split] at granted
    exact granted
  · rintro (holds | supplied)
    · exact sound.listed (Or.inl fun noCopy => holds (sameCopy.mpr noCopy))
    · refine sound.listed (Or.inr fun noSupply => supplied ?_)
      rw [flightEq] at noSupply
      exact noSupply.tail
  · have counted := sound.counted
    rw [flightEq, List.count_cons_of_ne (show Message.grant ≠ .flush from nofun)] at counted
    exact counted

/-- Whatever a kernel does of its own accord is sound. -/
theorem Sound.act {act : KernelAct} {fresh : ℕ} {kernelPage : KernelPage} {reports : List Report}
    (sound : link.Sound page client debt)
    (acted : link.page.act fresh act = some (kernelPage, reports)) :
    ({ link with page := kernelPage, up := link.up ++ reports } : Link).Sound page client debt := by
  cases act with
  | request write =>
      simp only [KernelPage.act, Option.ite_none_right_eq_some, Option.some_inj] at acted
      rcases acted with ⟨⟨noCopy, notPending⟩, same⟩
      cases same
      exact sound.request write noCopy notPending
  | unlock =>
      simp only [KernelPage.act] at acted
      cases copy? : link.page.copy with
      | none =>
          rw [copy?] at acted
          cases acted
      | some copy =>
          simp only [copy?, Option.ite_none_right_eq_some, Option.some_inj] at acted
          rcases acted with ⟨⟨_, notPending⟩, same⟩
          cases same
          have unlocked := sound.unlock (by rw [copy?]; exact nofun) notPending
          simpa only [copy?] using unlocked
  | modify =>
      simp only [KernelPage.act] at acted
      cases copy? : link.page.copy with
      | none =>
          rw [copy?] at acted
          cases acted
      | some copy =>
          simp only [copy?, Option.ite_none_right_eq_some, Option.some_inj] at acted
          rcases acted with ⟨_, same⟩
          cases same
          rw [List.append_nil]
          exact sound.modify _ (by rw [copy?]; exact nofun)
  | evict =>
      simp only [KernelPage.act] at acted
      cases copy? : link.page.copy with
      | none =>
          rw [copy?] at acted
          cases acted
      | some copy =>
          simp only [copy?, Option.some_inj] at acted
          cases acted
          exact sound.evict

/-- Whatever a kernel does with a message is sound. -/
theorem Sound.receive {message : Message} {rest : List Message}
    (sound : link.Sound page client debt) (first : link.down = message :: rest) :
    ({ link with down := rest, page := (link.page.receive message).1,
                 up := link.up ++ (link.page.receive message).2 } : Link).Sound page client
      debt := by
  cases message with
  | supply data write precious =>
      simp only [KernelPage.receive, List.append_nil]
      exact sound.receiveSupply first _
  | error =>
      simp only [KernelPage.receive, List.append_nil]
      exact sound.receiveError first
  | flush =>
      have completed := sound.evict.completeLock first
      simp only [KernelPage.receive]
      rwa [List.append_assoc] at completed
  | grant =>
      simp only [KernelPage.receive, List.append_nil]
      exact sound.receiveGrant first

end Kernel

section Pager

/-- Nothing that the kernel has reported is about a page it holds or has held. -/
def Settled (link : Link) : Prop :=
  ∀ report ∈ link.up, report = .lockCompleted ∨ report.isRequest = true

/-- The kernel has nothing of the page, and nothing is on its way in either direction. -/
structure Bare (page : Page) (client : MachPort) (link : Link) : Prop where
  noCopy : link.page.copy = none
  noSupply : NoSupply (link.flight page client)
  settled : link.Settled

theorem Settled.not_giveBack (settled : link.Settled) (version : ℕ) (dirty : Bool) :
    .giveBack version dirty ∉ link.up := by
  intro given
  rcases settled _ given with completed | request
  · cases completed
  · cases request

theorem Settled.not_unlock (settled : link.Settled) : .unlock ∉ link.up := by
  intro unlocking
  rcases settled _ unlocking with completed | request
  · cases completed
  · cases request

theorem flight_append {extra : List Message}
    (told : next.told client = page.told client ++ extra) :
    link.flight next client = link.flight page client ++ extra := by
  rw [flight, flight, told, List.append_assoc]

/-- Where a grant stands when no grant has been added to the messages. -/
theorem split_of_append {messages extra before after : List Message}
    (noGrant : .grant ∉ extra) (split : messages ++ extra = before ++ .grant :: after) :
    ∃ middle, messages = before ++ .grant :: middle ∧ after = middle ++ extra := by
  rcases List.append_eq_append_iff.mp split with ⟨more, _, extraEq⟩ | ⟨middle, messagesEq, afterEq⟩
  · refine absurd ?_ noGrant
    rw [extraEq]
    exact List.mem_append_right _ List.mem_cons_self
  · cases middle with
    | nil =>
        refine absurd ?_ noGrant
        rw [List.nil_append] at afterEq
        rw [← afterEq]
        exact List.mem_cons_self
    | cons message middle =>
        rw [List.cons_append, List.cons.injEq] at afterEq
        rcases afterEq with ⟨rfl, afterEq⟩
        exact ⟨middle, messagesEq, afterEq⟩

/--
What the pager does to a page is sound for a client when the messages it adds are paid for,
and a client that it takes off ACCESSLIST has nothing of the page.
-/
theorem Sound.step (sound : link.Sound page client debt) {debt' : ℕ} (extra : List Message)
    (told : next.told client = page.told client ++ extra) (noGrant : .grant ∉ extra)
    (asked : debt' + (waitingClients next.entry.waitlist).count client +
        extra.countP Message.isAnswer ≤
      debt + (waitingClients page.entry.waitlist).count client)
    (fresh : client ∈ waitingClients next.entry.waitlist ∨ ¬NoSupply extra →
      client ∈ waitingClients page.entry.waitlist ∨ link.Settled)
    (kept : client ∈ page.entry.accesslist →
      client ∈ next.entry.accesslist ∨ link.Bare page client)
    (supplied : ¬NoSupply extra → client ∈ next.entry.accesslist)
    (locks : next.lockCount client = page.lockCount client + extra.count .flush) :
    link.Sound next client debt' := by
  have flightEq : link.flight next client = link.flight page client ++ extra := flight_append told
  refine ⟨?_, sound.bare, sound.ordered, ?_, ?_, ?_, ?_, ?_⟩
  · have before := sound.asked
    rw [flightEq, List.countP_append]
    omega
  · intro version dirty given
    rcases sound.given version dirty given with ⟨isListed, noCopy, noSupply, notWaiting⟩
    have notSettled : ¬link.Settled := fun settled => settled.not_giveBack version dirty given
    have nothingNew : ¬(client ∈ waitingClients next.entry.waitlist ∨ ¬NoSupply extra) :=
      fun new => (fresh new).elim notWaiting notSettled
    rw [not_or, not_not] at nothingNew
    rw [flightEq]
    exact ⟨(kept isListed).resolve_right fun bare => notSettled bare.settled, noCopy,
      noSupply.append nothingNew.2, nothingNew.1⟩
  · intro unlocking
    rcases sound.unlocks unlocking with ⟨isListed, pending, noSupply, notWaiting, notGranted⟩
    have notSettled : ¬link.Settled := fun settled => settled.not_unlock unlocking
    have nothingNew : ¬(client ∈ waitingClients next.entry.waitlist ∨ ¬NoSupply extra) :=
      fun new => (fresh new).elim notWaiting notSettled
    rw [not_or, not_not] at nothingNew
    rw [flightEq, List.mem_append, not_or]
    exact ⟨(kept isListed).resolve_right fun bare => notSettled bare.settled, pending,
      noSupply.append nothingNew.2, nothingNew.1, notGranted, noGrant⟩
  · intro before after split
    rw [flightEq] at split
    rcases split_of_append noGrant split with ⟨middle, flightSplit, rfl⟩
    rcases sound.grants before middle flightSplit with ⟨noSupply, noMore, pending⟩
    refine ⟨noSupply, ?_, pending⟩
    rw [List.mem_append, not_or]
    exact ⟨noMore, noGrant⟩
  · rw [flightEq]
    intro holds
    by_cases newSupply : NoSupply extra
    · have heldBefore : link.page.copy ≠ none ∨ ¬NoSupply (link.flight page client) :=
        holds.imp_right fun some noSupply => some (noSupply.append newSupply)
      refine (kept (sound.listed heldBefore)).resolve_right fun bare => ?_
      exact heldBefore.elim (fun copy => copy bare.noCopy) fun some => some bare.noSupply
    · exact supplied newSupply
  · rw [locks, sound.counted, flightEq, List.count_append]
    omega

/-- A routine that does not concern the client. -/
theorem Sound.of_same (sound : link.Sound page client debt)
    (told : next.told client = page.told client)
    (waits : (waitingClients next.entry.waitlist).count client =
      (waitingClients page.entry.waitlist).count client)
    (kept : client ∈ page.entry.accesslist → client ∈ next.entry.accesslist)
    (locks : next.lockCount client = page.lockCount client) : link.Sound next client debt := by
  refine sound.step [] (by rw [told, List.append_nil]) List.not_mem_nil ?_ ?_
    (fun listed => Or.inl (kept listed)) (fun some => absurd (fun _ => nofun) some) locks
  · rw [waits]
    exact Nat.le_refl _
  · rintro (now | some)
    · rw [← List.count_pos_iff, waits, List.count_pos_iff] at now
      exact Or.inl now
    · exact absurd (fun _ => nofun) some

end Pager

end Link

namespace Page

variable {page next : Page} {client : MachPort}

/-- The messages to a client when each client of a list has been sent one. -/
theorem told_of_messages {clients : List MachPort} {message : Message}
    (messages : next.messages = page.messages ++ clients.map fun client => (client, message))
    (client : MachPort) :
    next.told client = page.told client ++ List.replicate (clients.count client) message := by
  have collected : ∀ clients : List MachPort,
      (clients.map fun client => (client, message)).filterMap (fun entry =>
        if entry.1 = client then some entry.2 else none) =
        List.replicate (clients.count client) message := by
    intro clients
    induction clients with
    | nil => rfl
    | cons head rest ih =>
        by_cases same : head = client
        · simp only [List.map_cons, List.filterMap_cons, same, if_true, ih,
            List.count_cons_self, List.replicate_succ]
        · simp only [List.map_cons, List.filterMap_cons, same, if_false, ih,
            List.count_cons_of_ne same]
  rw [told, messages, List.filterMap_append, collected]
  rfl

theorem told_eq_of_messages (messages : next.messages = page.messages) (client : MachPort) :
    next.told client = page.told client := by
  rw [told, told, messages]

end Page

namespace Link

variable {page next : Page} {client : MachPort} {debt : ℕ} {link : Link}

theorem noSupply_replicate {message : Message} (count : ℕ) (notSupply : message.isSupply = false) :
    NoSupply (List.replicate count message) := by
  intro other otherMem
  rw [List.eq_of_mem_replicate otherMem]
  exact notSupply

theorem Sound.flushEach (sound : link.Sound page client debt) (clients : List MachPort) :
    link.Sound (page.flushEach clients) client debt := by
  refine sound.step _ (Page.told_of_messages (page.flushEach_messages clients) client) ?_ ?_ ?_ ?_
    ?_ ?_
  · exact fun granted => by cases List.eq_of_mem_replicate granted
  · rw [Page.flushEach_entry, List.countP_replicate]
    simp [Message.isAnswer]
  · rintro (waits | supplied)
    · rw [Page.flushEach_entry] at waits
      exact Or.inl waits
    · exact absurd (noSupply_replicate _ rfl) supplied
  · intro listed
    rw [Page.flushEach_entry]
    exact Or.inl listed
  · exact fun supplied => absurd (noSupply_replicate _ rfl) supplied
  · rw [Page.flushEach_lockCount, List.count_replicate_self]

theorem Sound.serviceWaitlist (sound : link.Sound page client debt) {data : ℕ}
    {allowWriteAccess deallocate : Bool}
    (served : page.serviceWaitlist data allowWriteAccess deallocate = some next) :
    link.Sound next client debt := by
  rcases Page.serviceWaitlist_cases served with ⟨_, rfl⟩ | ⟨first, rest, _, waiting, rfl⟩
  · exact sound
  have split := Page.servedBatch_append_leftWaiting allowWriteAccess first rest
  rw [← waiting] at split
  rcases Page.serveFirst_frame data deallocate first rest page allowWriteAccess with ⟨sameLocks, -⟩
  have listed := Page.mem_serveFirst_accesslist data deallocate first rest page allowWriteAccess
    client
  have batch : link.Sound (page.serveFirst data allowWriteAccess deallocate first rest) client
      debt := by
    refine sound.step _ (Page.told_of_messages
      (Page.serveFirst_messages data deallocate first rest page allowWriteAccess) client)
      ?_ ?_ ?_ ?_ ?_ ?_
    · exact fun granted => by cases List.eq_of_mem_replicate granted
    · rw [Page.serveFirst_waitlist, ← split, List.count_append, List.countP_replicate]
      simp only [Message.isAnswer, if_true]
      omega
    · rintro (waits | supplied)
      · rw [Page.serveFirst_waitlist] at waits
        rw [← split]
        exact Or.inl (List.mem_append_right _ waits)
      · refine Or.inl ?_
        rw [← split]
        refine List.mem_append_left _ ?_
        by_contra notServed
        rw [List.count_eq_zero_of_not_mem notServed] at supplied
        exact supplied fun _ => nofun
    · exact fun before => Or.inl (listed.mpr (Or.inl before))
    · intro supplied
      refine listed.mpr (Or.inr ?_)
      by_contra notServed
      rw [List.count_eq_zero_of_not_mem notServed] at supplied
      exact supplied fun _ => nofun
    · rw [Page.lockCount, Page.lock?, sameLocks,
        List.count_replicate, if_neg (by simp), Nat.add_zero]
      rfl
  unfold Page.flushForWaiting
  split_ifs
  · exact batch
  · exact batch.flushEach _

theorem Sound.sendErrorToWaitlist (sound : link.Sound page client debt)
    (disjoint : ∀ client ∈ waitingClients page.entry.waitlist, client ∉ page.entry.accesslist) :
    link.Sound page.sendErrorToWaitlist client debt := by
  have messages : page.sendErrorToWaitlist.messages = page.messages ++
      (waitingClients page.entry.waitlist).map fun client => (client, .error) := by
    rw [Page.sendErrorToWaitlist_messages]
    congr 1
    refine List.map_congr_left fun other waits => ?_
    rw [if_neg (disjoint other waits)]
  refine sound.step _ (Page.told_of_messages messages client) ?_ ?_ ?_ ?_ ?_ ?_
  · exact fun granted => by cases List.eq_of_mem_replicate granted
  · rw [Page.sendErrorToWaitlist_entry, List.countP_replicate]
    simp [Message.isAnswer, waitingClients]
  · rintro (waits | supplied)
    · rw [Page.sendErrorToWaitlist_entry] at waits
      cases waits
    · exact absurd (noSupply_replicate _ rfl) supplied
  · intro listed
    rw [Page.sendErrorToWaitlist_entry]
    exact Or.inl listed
  · exact fun supplied => absurd (noSupply_replicate _ rfl) supplied
  · rw [Page.lockCount, Page.lock?, (Page.sendErrorToWaitlist_of_disjoint page disjoint).1,
      List.count_replicate, if_neg (by decide), Nat.add_zero]
    rfl

theorem Sound.finishPagein (sound : link.Sound page client debt)
    (disjoint : ∀ client ∈ waitingClients page.entry.waitlist, client ∉ page.entry.accesslist)
    {result : ReadResult} (finished : page.finishPagein result = some next) :
    link.Sound next client debt := by
  have errorSet : ∀ error, link.Sound (page.setError error) client debt :=
    fun _ => sound.of_same rfl rfl id rfl
  rcases Page.finishPagein_cases finished with ⟨_, served⟩ | ⟨_, rfl⟩
  · exact (errorSet kernSuccess).serviceWaitlist served
  · exact (errorSet result.error).sendErrorToWaitlist disjoint

/-- A client leaves ACCESSLIST with nothing of the page. -/
theorem Sound.removeFromAccesslist (sound : link.Sound page client debt) (removed : MachPort)
    (bare : removed = client → client ∈ page.entry.accesslist → link.Bare page client) :
    link.Sound (page.removeFromAccesslist removed) client debt := by
  refine sound.step [] (by rw [List.append_nil]; rfl) List.not_mem_nil (Nat.le_refl _) ?_ ?_ ?_ rfl
  · rintro (waits | some)
    · exact Or.inl waits
    · exact absurd (fun _ => nofun) some
  · intro listed
    by_cases same : removed = client
    · exact Or.inr (bare same listed)
    · exact Or.inl (OrdSet.mem_erase.mpr ⟨listed, Ne.symm same⟩)
  · exact fun some => absurd (fun _ => nofun) some

/-- The last thing the kernel is sent, or has answered, is a flush. -/
def Revoked (page : Page) (client : MachPort) (link : Link) : Prop :=
  (∃ before after, link.flight page client = before ++ .flush :: after ∧ NoSupply after) ∨
    link.page.copy = none ∧ NoSupply (link.flight page client) ∧
      ∃ before after, link.up = before ++ .lockCompleted :: after ∧
        ∀ report ∈ after, report.isRequest = true

/-- While others wait for a page, its holders have been asked to give it up. -/
def Watched (page : Page) (client : MachPort) (link : Link) : Prop :=
  page.entry.waitlist ≠ [] → client ∈ page.entry.accesslist → link.Revoked page client

theorem Revoked.step (revoked : link.Revoked page client) {extra : List Message}
    (told : next.told client = page.told client ++ extra) (noSupply : NoSupply extra) :
    link.Revoked next client := by
  have flightEq : link.flight next client = link.flight page client ++ extra := flight_append told
  rcases revoked with ⟨before, after, split, afterNone⟩ | ⟨noCopy, none, reported⟩
  · refine Or.inl ⟨before, after ++ extra, ?_, afterNone.append noSupply⟩
    rw [flightEq, split]
    simp
  · refine Or.inr ⟨noCopy, ?_, reported⟩
    rw [flightEq]
    exact none.append noSupply

theorem Watched.of_fewer (watched : link.Watched page client) {extra : List Message}
    (told : next.told client = page.told client ++ extra) (noSupply : NoSupply extra)
    (waits : next.entry.waitlist ≠ [] → page.entry.waitlist ≠ [])
    (fewer : client ∈ next.entry.accesslist → client ∈ page.entry.accesslist) :
    link.Watched next client :=
  fun someWait listed => (watched (waits someWait) (fewer listed)).step told noSupply

theorem Watched.of_same (watched : link.Watched page client)
    (told : next.told client = page.told client)
    (waits : next.entry.waitlist ≠ [] → page.entry.waitlist ≠ [])
    (fewer : client ∈ next.entry.accesslist → client ∈ page.entry.accesslist) :
    link.Watched next client :=
  watched.of_fewer (told.trans (List.append_nil _).symm) (fun _ => nofun) waits fewer

theorem watched_of_nil (noneWaiting : page.entry.waitlist = []) : link.Watched page client :=
  fun someWait => absurd noneWaiting someWait

/-- A client that has just been flushed. -/
theorem revoked_flushEach (page : Page) {clients : List MachPort} (flushed : client ∈ clients) :
    link.Revoked (page.flushEach clients) client := by
  have told := Page.told_of_messages (page.flushEach_messages clients) client
  rcases Nat.exists_eq_succ_of_ne_zero
    (List.count_pos_iff.mpr flushed).ne' with ⟨more, countEq⟩
  refine Or.inl ⟨link.flight page client ++ List.replicate more .flush, [], ?_, fun _ => nofun⟩
  rw [flight_append told, countEq, List.replicate_succ', List.append_assoc]

theorem Watched.flushEach (watched : link.Watched page client) (clients : List MachPort) :
    link.Watched (page.flushEach clients) client := by
  refine watched.of_fewer (Page.told_of_messages (page.flushEach_messages clients) client)
    (noSupply_replicate _ rfl) ?_ ?_
  · rw [Page.flushEach_entry]
    exact id
  · rw [Page.flushEach_entry]
    exact id

/-- `service_WAITLIST` flushes the page again when some clients are left waiting. -/
theorem watched_serviceWaitlist (running : page.terminating = false) {data : ℕ}
    {allowWriteAccess deallocate : Bool}
    (served : page.serviceWaitlist data allowWriteAccess deallocate = some next) :
    link.Watched next client := by
  rcases Page.serviceWaitlist_cases served with ⟨ended, _⟩ | ⟨first, rest, _, _, rfl⟩
  · rw [ended] at running
    cases running
  · intro someWait listed
    rw [Page.flushForWaiting_entry] at someWait listed
    rw [Page.flushForWaiting, if_neg (by simpa using someWait)]
    exact revoked_flushEach _ listed

theorem watched_finishPagein (running : page.terminating = false) {result : ReadResult}
    (finished : page.finishPagein result = some next) : link.Watched next client := by
  rcases Page.finishPagein_cases finished with ⟨_, served⟩ | ⟨_, rfl⟩
  · exact watched_serviceWaitlist (by exact running) served
  · exact watched_of_nil (by rw [Page.sendErrorToWaitlist_entry])

variable {actor : MachPort} {results : PageCallbacks}

theorem watched_internalLockCompleted (running : page.terminating = false)
    (watched : client = actor ∨ link.Watched page client)
    (disjoint : ∀ waiting ∈ waitingClients page.entry.waitlist,
      waiting ∉ page.entry.accesslist.erase actor)
    (completed : page.internalLockCompleted actor results = some next) :
    link.Watched next client := by
  cases Page.internalLockCompleted_cases completed with
  | terminating ended _ =>
      rw [ended] at running
      cases running
  | idle _ _ nothingToDo nextEq =>
      rw [nextEq]
      rcases watched with rfl | watched
      · exact fun someWait listed => absurd (nothingToDo listed) someWait
      · exact watched
  | others _ _ _ _ _ nextEq =>
      rw [nextEq]
      rcases watched with rfl | watched
      · exact fun _ listed => absurd rfl (OrdSet.mem_erase.mp listed).2
      · exact watched.of_same rfl id fun listed => (OrdSet.mem_erase.mp listed).1
  | refuse _ _ _ _ _ _ nextEq =>
      rw [nextEq]
      exact watched_of_nil (by rw [Page.sendErrorToWaitlist_entry])
  | pagein _ _ _ _ _ _ finished => exact watched_finishPagein (by exact running) finished
  | unlock _ _ _ _ first rest waiting firstListed _ =>
      refine absurd firstListed (disjoint first.client ?_)
      rw [waiting]
      exact List.mem_cons_self

/-- A callback tells a client nothing. -/
theorem told_send {event : PageEvent} (silent : event.message? = none) :
    (page.send event).told client = page.told client := by
  refine Page.told_eq_of_messages ?_ client
  simp [Page.messages, Page.send, silent]

theorem Sound.send (sound : link.Sound page client debt) (event : PageEvent)
    (silent : event.message? = none) : link.Sound (page.send event) client debt :=
  sound.of_same (told_send silent) rfl id rfl

theorem Sound.internalLockCompleted (sound : link.Sound page client debt)
    (disjoint : ∀ waiting ∈ waitingClients page.entry.waitlist,
      waiting ∉ page.entry.accesslist.erase actor)
    (bare : actor = client → client ∈ page.entry.accesslist → page.entry.waitlist ≠ [] →
      link.Bare page client)
    (completed : page.internalLockCompleted actor results = some next) :
    link.Sound next client debt := by
  cases Page.internalLockCompleted_cases completed with
  | terminating _ nextEq =>
      rw [nextEq]
      exact sound
  | idle _ _ _ nextEq =>
      rw [nextEq]
      exact sound
  | others _ _ _ waiting _ nextEq =>
      rw [nextEq]
      exact sound.removeFromAccesslist actor fun same listed => bare same listed waiting
  | refuse _ _ _ waiting _ _ nextEq =>
      rw [nextEq]
      exact (sound.removeFromAccesslist actor fun same listed =>
        bare same listed waiting).sendErrorToWaitlist disjoint
  | pagein _ _ _ waiting _ _ finished =>
      exact ((sound.removeFromAccesslist actor fun same listed =>
        bare same listed waiting).send .readPage rfl).finishPagein disjoint finished
  | unlock _ _ _ _ first rest waiting firstListed _ =>
      refine absurd firstListed (disjoint first.client ?_)
      rw [waiting]
      exact List.mem_cons_self

/-- The client whose request is being handled joins WAITLIST. -/
theorem Sound.addToWaitlist (write : Bool)
    (sound : link.Sound page client (if client = actor then 1 else 0))
    (settled : client = actor → link.Settled) :
    link.Sound (page.addToWaitlist actor write) client 0 := by
  have joined : waitingClients (page.addToWaitlist actor write).entry.waitlist =
      waitingClients page.entry.waitlist ++ [actor] := by
    simp [Page.addToWaitlist, waitingClients]
  refine sound.step [] (by rw [List.append_nil]; rfl) List.not_mem_nil ?_ ?_ Or.inl
    (fun some => absurd (by rintro _ ⟨⟩) some) rfl
  · rw [joined, List.count_append, List.count_singleton]
    by_cases same : client = actor
    · rw [if_pos same, if_pos (beq_iff_eq.mpr same.symm), List.countP_nil]
      omega
    · simp [same, Ne.symm same]
  · rintro (waits | some)
    · rw [joined] at waits
      rcases List.mem_append.mp waits with before | now
      · exact Or.inl before
      · exact Or.inr (settled (List.mem_singleton.mp now))
    · exact absurd (by rintro _ ⟨⟩) some

/-- A client whose request is being handled has nothing of the page. -/
theorem Sound.bare_of_debt (sound : link.Sound page client 1) (settled : link.Settled) :
    link.Bare page client := by
  have asked := sound.asked
  have asking : link.page.pending = .request := by
    by_contra notAsking
    rw [if_neg notAsking] at asked
    omega
  rw [if_pos asking] at asked
  exact ⟨sound.bare asking, noSupply_of_countP (by omega), settled⟩

theorem Sound.dataRequest {write : Bool} (notPagingout : page.entry.pagingout = false)
    (orderly : page.Orderly) (once : ¬page.AnswersTwice actor write)
    (sound : link.Sound page client (if client = actor then 1 else 0))
    (settled : client = actor → link.Settled)
    (requested : page.dataRequest actor write results = some next) :
    link.Sound next client 0 := by
  have bare : client = actor → link.Bare page client := by
    intro same
    rw [if_pos same] at sound
    exact sound.bare_of_debt (settled same)
  have left : link.Sound (page.leaveForRequest actor) client
      (if client = actor then 1 else 0) := by
    by_cases listed : actor ∈ page.entry.accesslist
    · rw [Page.leaveForRequest, if_pos listed]
      exact (sound.removeFromAccesslist actor fun same _ => bare same.symm).of_same rfl rfl id rfl
    · rw [Page.leaveForRequest, if_neg listed]
      exact sound
  have leftNotListed : actor ∉ (page.leaveForRequest actor).entry.accesslist := by
    unfold Page.leaveForRequest
    split_ifs with listed
    · exact fun still => (OrdSet.mem_erase.mp still).2 rfl
    · exact listed
  cases Page.dataRequest_cases requested with
  | error found rest _ nextEq =>
      rw [nextEq]
      have told : (page.send (.dataError actor found.error)).told client =
          page.told client ++ List.replicate ([actor].count client) .error := by
        refine Page.told_of_messages ?_ client
        simp [Page.messages, Page.send, PageEvent.message?]
      refine sound.step _ told ?_ ?_ ?_ Or.inl ?_ ?_
      · exact fun granted => by cases List.eq_of_mem_replicate granted
      · rw [List.countP_replicate, List.count_singleton]
        by_cases same : client = actor
        · simp only [same, if_pos, beq_self_eq_true, Message.isAnswer, Page.send]
          omega
        · simp [same, Ne.symm same, Message.isAnswer, Page.send]
      · rintro (waits | supplied)
        · exact Or.inl waits
        · exact absurd (noSupply_replicate _ rfl) supplied
      · exact fun supplied => absurd (noSupply_replicate _ rfl) supplied
      · rw [List.count_replicate, if_neg (by decide), Nat.add_zero]
        rfl
  | held isPagingout =>
      rw [notPagingout] at isPagingout
      cases isPagingout
  | completed _ listed waiting finished =>
      refine (sound.addToWaitlist write settled).internalLockCompleted ?_ ?_ finished
      · intro other waits
        simp only [Page.addToWaitlist, waitingClients, List.map_append, List.map_cons,
          List.map_nil, List.mem_append, List.mem_singleton] at waits
        intro stillListed
        rcases OrdSet.mem_erase.mp stillListed with ⟨wasListed, different⟩
        rcases waits with before | now
        · exact orderly.disjoint other before wasListed
        · exact different now
      · intro same _ _
        rcases bare same.symm with ⟨noCopy, noSupply, isSettled⟩
        exact ⟨noCopy, noSupply, isSettled⟩
  | waits _ _ _ nextEq =>
      rw [nextEq]
      exact sound.addToWaitlist write settled
  | revokes _ _ _ nextEq =>
      rw [nextEq]
      exact (left.addToWaitlist write settled).flushEach _
  | pagein _ noError noneWaiting notGranted free finished =>
      have sameInvalid : (page.leaveForRequest actor).entry.invalid = page.entry.invalid := by
        unfold Page.leaveForRequest
        split_ifs <;> rfl
      have valid : (page.leaveForRequest actor).entry.invalid = false := by
        rw [sameInvalid, ← Bool.not_eq_true]
        exact fun invalid => once ⟨notPagingout, noError, noneWaiting, invalid, notGranted, free⟩
      rw [Page.tellInvalid, valid, if_neg (by simp)] at finished
      refine ((left.addToWaitlist write settled).send .readPage rfl).finishPagein ?_ finished
      intro other waits
      have onlyOne : other = actor := by
        simpa [Page.addToWaitlist, Page.send, waitingClients,
          (page.leaveForRequest_waitlist actor).trans noneWaiting] using waits
      rw [onlyOne]
      exact leftNotListed

theorem watched_dataRequest {write : Bool} (notPagingout : page.entry.pagingout = false)
    (running : page.terminating = false) (orderly : page.Orderly)
    (watched : link.Watched page client)
    (requested : page.dataRequest actor write results = some next) :
    link.Watched next client := by
  have leftRunning : (page.leaveForRequest actor).terminating = false := by
    unfold Page.leaveForRequest
    split_ifs <;> exact running
  have toldRunning : ((page.leaveForRequest actor).tellInvalid actor).terminating = false := by
    unfold Page.tellInvalid
    split_ifs <;> exact leftRunning
  cases Page.dataRequest_cases requested with
  | error found rest _ nextEq =>
      rw [nextEq]
      have told : (page.send (.dataError actor found.error)).told client =
          page.told client ++ List.replicate ([actor].count client) .error := by
        refine Page.told_of_messages ?_ client
        simp [Page.messages, Page.send, PageEvent.message?]
      exact watched.of_fewer told (noSupply_replicate _ rfl) id id
  | held isPagingout =>
      rw [notPagingout] at isPagingout
      cases isPagingout
  | completed _ listed waiting finished =>
      have added : link.Watched (page.addToWaitlist actor write) client :=
        watched.of_same rfl (fun _ => waiting) id
      refine watched_internalLockCompleted (by exact running) (Or.inr added) ?_ finished
      intro other waits
      simp only [Page.addToWaitlist, waitingClients, List.map_append, List.map_cons,
        List.map_nil, List.mem_append, List.mem_singleton] at waits
      intro stillListed
      rcases OrdSet.mem_erase.mp stillListed with ⟨wasListed, different⟩
      rcases waits with before | now
      · exact orderly.disjoint other before wasListed
      · exact different now
  | waits _ _ waiting nextEq =>
      rw [nextEq]
      exact watched.of_same rfl (fun _ => waiting) id
  | revokes _ _ _ nextEq =>
      rw [nextEq]
      intro _ listed
      rw [Page.flushEach_entry] at listed
      exact revoked_flushEach _ listed
  | pagein _ _ _ _ _ finished => exact watched_finishPagein (by exact toldRunning) finished

/-- A client that has asked to unlock a page is granted it. -/
theorem Sound.grant (sound : link.Sound page client debt)
    (told : next.told client = page.told client ++ [.grant])
    (entry : next.entry.accesslist = page.entry.accesslist ∧
      next.entry.waitlist = page.entry.waitlist)
    (locks : next.lockCount client = page.lockCount client) (notUnlocking : .unlock ∉ link.up)
    (noSupply : NoSupply (link.flight page client)) (notGranted : .grant ∉ link.flight page client)
    (pending : link.page.copy ≠ none → link.page.pending = .unlock) :
    link.Sound next client debt := by
  have flightEq : link.flight next client = link.flight page client ++ [.grant] :=
    flight_append told
  have stillNone : NoSupply (link.flight next client) := by
    rw [flightEq]
    refine noSupply.append ?_
    intro message messageMem
    rw [List.mem_singleton.mp messageMem]
    rfl
  refine ⟨?_, sound.bare, sound.ordered, ?_, fun unlocking => absurd unlocking notUnlocking, ?_, ?_,
    ?_⟩
  · rw [entry.2, flightEq, List.countP_append]
    exact sound.asked
  · intro version dirty given
    rcases sound.given version dirty given with ⟨isListed, noCopy, _, notWaiting⟩
    rw [entry.1, entry.2]
    exact ⟨isListed, noCopy, stillNone, notWaiting⟩
  · intro before after split
    rw [flightEq] at split
    obtain ⟨rfl, afterNil⟩ : before = link.flight page client ∧ after = [] := by
      rcases List.append_eq_append_iff.mp split with
        ⟨more, beforeEq, grantEq⟩ | ⟨middle, flightSplit, afterEq⟩
      · cases more with
        | nil =>
            rw [List.nil_append, List.cons.injEq] at grantEq
            rw [List.append_nil] at beforeEq
            exact ⟨beforeEq, grantEq.2.symm⟩
        | cons message more =>
            rw [List.cons_append, List.cons.injEq] at grantEq
            have impossible := grantEq.2
            simp at impossible
      · cases middle with
        | nil =>
            rw [List.append_nil] at flightSplit
            rw [List.nil_append, List.cons.injEq] at afterEq
            exact ⟨flightSplit.symm, afterEq.2⟩
        | cons message middle =>
            rw [List.cons_append, List.cons.injEq] at afterEq
            refine absurd ?_ notGranted
            rw [flightSplit, ← afterEq.1]
            exact List.mem_append_right _ List.mem_cons_self
    rw [afterNil]
    exact ⟨noSupply, List.not_mem_nil, pending⟩
  · rintro (holds | supplied)
    · rw [entry.1]
      exact sound.listed (Or.inl holds)
    · exact absurd stillNone supplied
  · rw [locks, sound.counted, flightEq, List.count_append]
    rfl

/-- What is known of a client whose unlock is being handled. -/
structure Unlocking (page : Page) (client : MachPort) (link : Link) : Prop where
  noMore : .unlock ∉ link.up
  noSupply : NoSupply (link.flight page client)
  notGranted : .grant ∉ link.flight page client
  pending : link.page.copy ≠ none → link.page.pending = .unlock

theorem Unlocking.step (unlocking : link.Unlocking page client) {extra : List Message}
    (told : next.told client = page.told client ++ extra) (noSupply : NoSupply extra)
    (noGrant : .grant ∉ extra) : link.Unlocking next client := by
  have flightEq : link.flight next client = link.flight page client ++ extra := flight_append told
  refine ⟨unlocking.noMore, ?_, ?_, unlocking.pending⟩
  · rw [flightEq]
    exact unlocking.noSupply.append noSupply
  · rw [flightEq, List.mem_append, not_or]
    exact ⟨unlocking.notGranted, noGrant⟩

/-- The page before `finalize_unlock` has taken its client off WAITLIST again. -/
theorem dataUnlock_frame (actor : MachPort) (noneWaiting : page.entry.waitlist = []) (flushes : List MachPort) :
    let entered := ((page.addToWaitlist actor true).flushEach flushes).send .unlockPage
    (entered.setWaitlist []).entry = (page.flushEach flushes).entry ∧
      entered.entry.waitlist = [⟨actor, true⟩] ∧
      (∀ client, (entered.setWaitlist []).told client = (page.flushEach flushes).told client) ∧
      ∀ client, (entered.setWaitlist []).lockCount client =
        (page.flushEach flushes).lockCount client := by
  refine ⟨?_, ?_, ?_, ?_⟩
  · simp [Page.setWaitlist, Page.send, Page.addToWaitlist, ← noneWaiting]
  · simp [Page.send, Page.addToWaitlist, noneWaiting]
  · intro client
    refine Page.told_eq_of_messages ?_ client
    have sent : (page.flushEach flushes).messages =
        ((page.addToWaitlist actor true).flushEach flushes).messages := by
      rw [Page.flushEach_messages, Page.flushEach_messages]
      rfl
    rw [sent]
    simp [Page.messages, Page.setWaitlist, Page.send, PageEvent.message?]
  · intro client
    rw [Page.flushEach_lockCount]
    exact ((page.addToWaitlist actor true).flushEach_lockCount flushes client).trans rfl

theorem Sound.dataUnlock {first : Bool} {others : List MachPort} (notQueued : ¬page.QueuesUnlock)
    (sound : link.Sound page client 0) (own : client = actor → link.Unlocking page client)
    (unlocked : page.dataUnlock actor first others results = some next) :
    link.Sound next client 0 := by
  cases Page.dataUnlock_cases unlocked with
  | ignored _ _ nextEq =>
      rw [nextEq]
      exact sound.flushEach _
  | queued _ _ readersWait waiting => exact absurd ⟨readersWait, Or.inl waiting⟩ notQueued
  | revokes _ _ noneWaiting shared =>
      refine absurd ⟨?_, Or.inr shared⟩ notQueued
      simp [PagemapEntry.isAnyClientWaitingForWriteAccess, noneWaiting]
  | alone _ _ noneWaiting _ finished =>
      have flushed := sound.flushEach (if first then others else [])
      rcases dataUnlock_frame actor noneWaiting (if first then others else []) with
        ⟨sameEntry, onlyOne, sameTold, sameLocks⟩
      cases Page.finalizeUnlock_cases finished with
      | granted head tail waits _ nextEq =>
          cases onlyOne.symm.trans waits
          rw [if_pos rfl] at nextEq
          rw [nextEq]
          by_cases same : client = actor
          · have stillOwn : link.Unlocking (page.flushEach (if first then others else []))
                client := (own same).step
              (Page.told_of_messages (page.flushEach_messages _) client) (noSupply_replicate _ rfl)
              fun granted => by cases List.eq_of_mem_replicate granted
            refine flushed.grant ?_ ?_ (sameLocks client) stillOwn.noMore stillOwn.noSupply
              stillOwn.notGranted stillOwn.pending
            · rw [← sameTold client, same]
              simp [Page.told, Page.messages, Page.flushEach, Page.setWriteAccessGranted, Page.send,
                PageEvent.message?]
            · rw [← sameEntry]
              exact ⟨rfl, rfl⟩
          · refine flushed.of_same ?_ ?_ ?_ (sameLocks client)
            · rw [← sameTold client]
              simp [Page.told, Page.messages, Page.flushEach, Page.setWriteAccessGranted, Page.send,
                PageEvent.message?, Ne.symm same]
            · rw [← sameEntry]
              rfl
            · rw [← sameEntry]
              exact id
      | failed head tail waits _ nextEq =>
          cases onlyOne.symm.trans waits
          rw [nextEq]
          have popped : link.Sound ((((page.addToWaitlist actor true).flushEach
              (if first then others else [])).send .unlockPage).setWaitlist []) client 0 :=
            flushed.of_same (sameTold client) (by rw [sameEntry]) (by rw [sameEntry]; exact id)
              (sameLocks client)
          exact (popped.flushEach [actor]).of_same rfl rfl id rfl

theorem watched_dataUnlock {first : Bool} {others : List MachPort}
    (notQueued : ¬page.QueuesUnlock) (watched : link.Watched page client)
    (unlocked : page.dataUnlock actor first others results = some next) :
    link.Watched next client := by
  cases Page.dataUnlock_cases unlocked with
  | ignored _ _ nextEq =>
      rw [nextEq]
      exact watched.flushEach _
  | queued _ _ readersWait waiting => exact absurd ⟨readersWait, Or.inl waiting⟩ notQueued
  | revokes _ _ noneWaiting shared =>
      refine absurd ⟨?_, Or.inr shared⟩ notQueued
      simp [PagemapEntry.isAnyClientWaitingForWriteAccess, noneWaiting]
  | alone _ _ noneWaiting _ finished =>
      rcases dataUnlock_frame actor noneWaiting (if first then others else []) with ⟨-, onlyOne, -⟩
      refine watched_of_nil ?_
      cases Page.finalizeUnlock_cases finished with
      | granted head tail waits _ nextEq =>
          cases onlyOne.symm.trans waits
          rw [nextEq, Page.flushEach_entry]
          rfl
      | failed head tail waits _ nextEq =>
          cases onlyOne.symm.trans waits
          rw [nextEq]
          simp [Page.setWaitlist]

theorem Sound.leaveForReturn (sound : link.Sound page client debt)
    (bare : client = actor → link.Bare page client) :
    link.Sound (page.leaveForReturn actor) client debt := by
  unfold Page.leaveForReturn
  split_ifs
  · exact sound
  · exact sound.removeFromAccesslist actor fun same _ => bare same.symm

theorem Sound.handedOff {data : ℕ} {dirty kernelCopy : Bool} {flags : Page.ReturnFlags}
    (sound : link.Sound page client debt) (bare : client = actor → link.Bare page client)
    (handedOff : Page.HandedOff page actor data dirty kernelCopy next flags) :
    link.Sound next client debt := by
  have left := sound.leaveForReturn bare
  cases handedOff with
  | keeps _ nextEq =>
      rw [nextEq]
      exact sound
  | serves _ _ _ served => exact left.serviceWaitlist served
  | unlocks _ _ _ _ _ _ _ _ nextEq =>
      rw [nextEq]
      exact left
  | evicts _ _ _ _ nextEq =>
      rw [nextEq]
      exact left.of_same rfl rfl id rfl
  | leaves _ _ nextEq =>
      rw [nextEq]
      exact left

theorem Sound.notified (sound : link.Sound page client debt)
    (notified : Page.Notified page next) : link.Sound next client debt := by
  refine sound.of_same (Page.told_eq_of_messages notified.messages client) ?_ ?_ ?_
  · rw [notified.entry]
  · rw [notified.entry]
    exact id
  · rw [Page.lockCount, Page.lock?, notified.locks]
    rfl

theorem Sound.written (sound : link.Sound page client debt) (data : ℕ) (error : KernReturn) :
    link.Sound (page.written data error) client debt := by
  rcases page.written_frame data error with ⟨accesslist, waitlist, -, locks, -, messages, -⟩
  refine sound.of_same (Page.told_eq_of_messages messages client) ?_ ?_ ?_
  · rw [waitlist]
  · rw [accesslist]
    exact id
  · rw [Page.lockCount, Page.lock?, locks]
    rfl

theorem Sound.dataReturn {data : ℕ} {dirty kernelCopy any : Bool} (orderly : page.Orderly)
    (sound : link.Sound page client debt) (bare : client = actor → link.Bare page client)
    (returned : page.dataReturn actor data dirty kernelCopy any results = some next) :
    link.Sound next client debt := by
  cases Page.dataReturn_cases returned with
  | clean _ _ _ handedOff _ notified => exact (sound.handedOff bare handedOff).notified notified
  | unlocks _ _ _ _ handedOff unlocking =>
      have notUnlocking := (orderly.handedOff handedOff).2
      rw [unlocking] at notUnlocking
      cases notUnlocking
  | keeps _ _ nextEq =>
      rw [nextEq]
      exact sound.written data results.write
  | serves _ _ _ handedOff _ served =>
      exact ((sound.handedOff bare handedOff).written data results.write).serviceWaitlist served
  | evicts _ _ handed handedOff _ notified =>
      have evicted : link.Sound (handed.written data results.write).evicted client debt :=
        ((sound.handedOff bare handedOff).written data results.write).of_same rfl rfl id rfl
      exact evicted.notified notified

theorem watched_handedOff {data : ℕ} {dirty kernelCopy : Bool} {flags : Page.ReturnFlags}
    (running : page.terminating = false) (watched : link.Watched page client)
    (handedOff : Page.HandedOff page actor data dirty kernelCopy next flags) :
    link.Watched next client := by
  have left : link.Watched (page.leaveForReturn actor) client := by
    unfold Page.leaveForReturn
    split_ifs
    · exact watched
    · exact watched.of_same rfl id fun listed => (OrdSet.mem_erase.mp listed).1
  have leftRunning : (page.leaveForReturn actor).terminating = false := by
    unfold Page.leaveForReturn
    split_ifs <;> exact running
  cases handedOff with
  | keeps _ nextEq =>
      rw [nextEq]
      exact watched
  | serves _ _ _ served => exact watched_serviceWaitlist leftRunning served
  | unlocks _ _ _ _ _ _ _ _ nextEq =>
      rw [nextEq]
      exact left
  | evicts _ _ _ _ nextEq =>
      rw [nextEq]
      exact left.of_same rfl id id
  | leaves _ _ nextEq =>
      rw [nextEq]
      exact left

theorem watched_dataReturn {data : ℕ} {dirty kernelCopy any : Bool} (orderly : page.Orderly)
    (running : page.terminating = false) (watched : link.Watched page client)
    (returned : page.dataReturn actor data dirty kernelCopy any results = some next) :
    link.Watched next client := by
  have afterWritten : ∀ {handed : Page}, link.Watched handed client →
      link.Watched (handed.written data results.write) client := by
    intro handed watched
    rcases handed.written_frame data results.write with ⟨accesslist, waitlist, -, -, -, messages, -⟩
    exact watched.of_same (Page.told_eq_of_messages messages client) (by rw [waitlist]; exact id)
      (by rw [accesslist]; exact id)
  have afterNotified : ∀ {notified next : Page}, link.Watched notified client →
      Page.Notified notified next → link.Watched next client := by
    intro page next watched notified
    exact watched.of_same (Page.told_eq_of_messages notified.messages client)
      (by rw [notified.entry]; exact id) (by rw [notified.entry]; exact id)
  cases Page.dataReturn_cases returned with
  | clean _ _ _ handedOff _ notified =>
      exact afterNotified (watched_handedOff running watched handedOff) notified
  | unlocks _ _ _ _ handedOff unlocking =>
      have notUnlocking := (orderly.handedOff handedOff).2
      rw [unlocking] at notUnlocking
      cases notUnlocking
  | keeps _ _ nextEq =>
      rw [nextEq]
      exact afterWritten watched
  | serves _ _ handed handedOff _ served =>
      refine watched_serviceWaitlist ?_ served
      rcases handed.written_frame data results.write with ⟨-, -, -, -, -, -, constants⟩
      exact constants.1.trans (handedOff.constants.1.trans running)
  | evicts _ _ handed handedOff noneWaiting notified =>
      refine afterNotified (watched_of_nil ?_) notified
      rcases handed.written_frame data results.write with ⟨-, waitlist, -⟩
      exact waitlist.trans noneWaiting

section Pop

variable {report : Report} {rest : List Report}

/-- A report other than a completed lock is taken off the queue. -/
theorem Sound.pop (sound : link.Sound page client 0) (first : link.up = report :: rest)
    (notCompletion : report ≠ .lockCompleted) :
    ({ link with up := rest } : Link).Sound page client (if report.isRequest then 1 else 0) := by
  have stillOn : ∀ {other : Report}, other ∈ rest → other ∈ link.up := by
    intro other otherMem
    rw [first]
    exact List.mem_cons_of_mem _ otherMem
  refine ⟨?_, sound.bare, ?_, fun version dirty given => sound.given version dirty (stillOn given),
    fun unlocking => sound.unlocks (stillOn unlocking), sound.grants, sound.listed, ?_⟩
  · have asked := sound.asked
    rw [first, List.countP_cons] at asked
    simp only [flight] at asked ⊢
    omega
  · have ordered := sound.ordered
    rw [first, List.pairwise_cons] at ordered
    exact ordered.2
  · have counted := sound.counted
    rw [first, List.count_cons_of_ne notCompletion] at counted
    exact counted

theorem Watched.pop (watched : link.Watched page client) (first : link.up = report :: rest)
    (notCompletion : report ≠ .lockCompleted) :
    ({ link with up := rest } : Link).Watched page client := by
  intro someWait listed
  rcases watched someWait listed with flushed | ⟨noCopy, noSupply, before, after, split, requests⟩
  · exact Or.inl flushed
  · refine Or.inr ⟨noCopy, noSupply, ?_⟩
    rw [first] at split
    cases before with
    | nil =>
        rw [List.nil_append, List.cons.injEq] at split
        exact absurd split.1 notCompletion
    | cons head before =>
        rw [List.cons_append, List.cons.injEq] at split
        exact ⟨before, after, split.2, requests⟩

/-- Behind a request of a kernel there are completed locks only. -/
theorem Sound.settled_of_request {write : Bool} (sound : link.Sound page client debt)
    (first : link.up = .request write :: rest) : ({ link with up := rest } : Link).Settled := by
  have ordered := sound.ordered
  rw [first, List.pairwise_cons] at ordered
  exact fun report reportMem => Or.inl (ordered.1 report reportMem)

/-- A kernel that has given a page back has nothing of it. -/
theorem Sound.bare_of_giveBack {version : ℕ} {dirty : Bool} (sound : link.Sound page client debt)
    (first : link.up = .giveBack version dirty :: rest) :
    ({ link with up := rest } : Link).Bare page client := by
  have given : .giveBack version dirty ∈ link.up := by
    rw [first]
    exact List.mem_cons_self
  rcases sound.given version dirty given with ⟨-, noCopy, noSupply, -⟩
  have ordered := sound.ordered
  rw [first, List.pairwise_cons] at ordered
  exact ⟨noCopy, noSupply, ordered.1⟩

theorem Sound.unlocking_of_unlock (sound : link.Sound page client debt)
    (first : link.up = .unlock :: rest) :
    ({ link with up := rest } : Link).Unlocking page client := by
  have onUp : .unlock ∈ link.up := by
    rw [first]
    exact List.mem_cons_self
  rcases sound.unlocks onUp with ⟨-, pending, noSupply, -, notGranted⟩
  have ordered := sound.ordered
  rw [first, List.pairwise_cons] at ordered
  exact ⟨fun again => ordered.1 .unlock again rfl, noSupply, notGranted, pending⟩

/-- A completed lock is taken off the queue and its count. -/
theorem Sound.complete (sound : link.Sound page client 0)
    (first : link.up = .lockCompleted :: rest) (entry : next.entry = page.entry)
    (told : next.told client = page.told client)
    (locks : next.lockCount client + 1 = page.lockCount client) :
    ({ link with up := rest } : Link).Sound next client 0 := by
  have stillOn : ∀ {other : Report}, other ∈ rest → other ∈ link.up := by
    intro other otherMem
    rw [first]
    exact List.mem_cons_of_mem _ otherMem
  have flightEq : ({ link with up := rest } : Link).flight next client =
      link.flight page client := by
    rw [flight, flight, told]
  refine ⟨?_, sound.bare, ?_, ?_, ?_, ?_, ?_, ?_⟩
  · have asked := sound.asked
    rw [first, List.countP_cons_of_neg (by exact nofun)] at asked
    rw [entry, flightEq]
    exact asked
  · have ordered := sound.ordered
    rw [first, List.pairwise_cons] at ordered
    exact ordered.2
  · rw [entry, flightEq]
    exact fun version dirty given => sound.given version dirty (stillOn given)
  · rw [entry, flightEq]
    exact fun unlocking => sound.unlocks (stillOn unlocking)
  · rw [flightEq]
    exact sound.grants
  · rw [entry, flightEq]
    exact sound.listed
  · have counted := sound.counted
    rw [first, List.count_cons_self] at counted
    rw [flightEq]
    simp only
    omega

/-- The holder of a page that others wait for, once it has answered its last flush. -/
theorem bare_of_lastLock (sound : ({ link with up := rest } : Link).Sound page client 0)
    (revoked : link.Revoked page client) (first : link.up = .lockCompleted :: rest)
    (lastOne : page.lockCount client = 0) :
    ({ link with up := rest } : Link).Bare page client := by
  have counted := sound.counted
  rw [lastOne] at counted
  have notFlushed : .flush ∉ link.flight page client := by
    rw [← List.count_eq_zero]
    simp only [flight] at counted ⊢
    omega
  have noMore : .lockCompleted ∉ rest := by
    rw [← List.count_eq_zero]
    simp only at counted
    omega
  rcases revoked with ⟨before, after, split, _⟩ | ⟨noCopy, noSupply, before, after, split, requests⟩
  · refine absurd ?_ notFlushed
    rw [split]
    exact List.mem_append_right _ List.mem_cons_self
  · refine ⟨noCopy, noSupply, ?_⟩
    rw [first] at split
    cases before with
    | nil =>
        rw [List.nil_append, List.cons.injEq] at split
        intro report reportMem
        rw [show rest = after from split.2] at reportMem
        exact Or.inr (requests report reportMem)
    | cons head before =>
        rw [List.cons_append, List.cons.injEq] at split
        refine absurd ?_ noMore
        rw [split.2]
        exact List.mem_append_right _ List.mem_cons_self

/-- A flush that has been answered while another is under way. -/
theorem revoked_of_lockCount (sound : ({ link with up := rest } : Link).Sound page client 0)
    (revoked : link.Revoked page client) (first : link.up = .lockCompleted :: rest)
    (moreToCome : page.lockCount client ≠ 0) :
    ({ link with up := rest } : Link).Revoked page client := by
  rcases revoked with flushed | ⟨noCopy, noSupply, before, after, split, requests⟩
  · exact Or.inl flushed
  · rw [first] at split
    cases before with
    | nil =>
        rw [List.nil_append, List.cons.injEq] at split
        have noMore : rest.count .lockCompleted = 0 := by
          rw [List.count_eq_zero, split.2]
          intro completed
          cases requests _ completed
        have counted := sound.counted
        have flushed : .flush ∈ link.flight page client := by
          rw [← List.count_pos_iff]
          simp only [flight] at counted ⊢
          omega
        rcases List.append_of_mem flushed with ⟨start, stop, flightSplit⟩
        refine Or.inl ⟨start, stop, flightSplit, ?_⟩
        intro message messageMem
        refine noSupply message ?_
        rw [flightSplit]
        exact List.mem_append_right _ (List.mem_cons_of_mem _ messageMem)
    | cons head before =>
        rw [List.cons_append, List.cons.injEq] at split
        exact Or.inr ⟨noCopy, noSupply, before, after, split.2, requests⟩

end Pop

theorem sound_lockCompleted_own {rest : List Report} (orderly : page.Orderly)
    (running : page.terminating = false) (sound : link.Sound page client 0)
    (watched : link.Watched page client) (first : link.up = .lockCompleted :: rest)
    (answered : page.lockCompleted client results = some next) :
    ({ link with up := rest } : Link).Sound next client 0 ∧
      ({ link with up := rest } : Link).Watched next client := by
  have lockCountEq : ∀ {record : OutstandingClientLock}, page.lock? client = some record →
      page.lockCount client = record.count := by
    intro record found
    rw [Page.lockCount, found]
    rfl
  cases Page.lockCompleted_cases answered with
  | counted record found more nextEq =>
      have stored : next.lockCount client = record.count - 1 := by
        rw [nextEq, Page.lockCount, Page.storeLocks_lock?, OrdMap.find?_insert, if_pos rfl]
        rfl
      have completed : ({ link with up := rest } : Link).Sound next client 0 := by
        refine sound.complete first (by rw [nextEq]; rfl) (by rw [nextEq]; rfl) ?_
        rw [stored, lockCountEq found]
        omega
      refine ⟨completed, fun someWait listed => ?_⟩
      rw [nextEq] at someWait listed
      have revoked : link.Revoked next client := by
        have before := watched someWait listed
        rw [nextEq]
        exact before
      refine revoked_of_lockCount completed revoked first ?_
      rw [stored]
      omega
  | external record found _ notInternal =>
      rw [orderly.internal client record found] at notInternal
      cases notInternal
  | internal record found last _ finished =>
      have forgotten : (page.forget client).lockCount client = 0 := by
        rw [Page.lockCount, Page.forget_lock?, if_pos rfl]
        rfl
      have completed : ({ link with up := rest } : Link).Sound (page.forget client) client 0 := by
        refine sound.complete first rfl rfl ?_
        rw [forgotten, lockCountEq found, last]
      have disjoint : ∀ waiting ∈ waitingClients (page.forget client).entry.waitlist,
          waiting ∉ (page.forget client).entry.accesslist.erase client :=
        fun waiting waits listed =>
          orderly.disjoint waiting waits (OrdSet.mem_erase.mp listed).1
      refine ⟨completed.internalLockCompleted disjoint ?_ finished,
        watched_internalLockCompleted (by exact running) (Or.inl rfl) disjoint finished⟩
      intro _ listed waiting
      exact bare_of_lastLock completed (by exact watched waiting listed) first forgotten

theorem sound_lockCompleted_other (orderly : page.Orderly) (running : page.terminating = false)
    (different : client ≠ actor) (sound : link.Sound page client 0)
    (watched : link.Watched page client)
    (answered : page.lockCompleted actor results = some next) :
    link.Sound next client 0 ∧ link.Watched next client := by
  cases Page.lockCompleted_cases answered with
  | counted record found _ nextEq =>
      have sameLock : next.lockCount client = page.lockCount client := by
        rw [nextEq, Page.lockCount, Page.storeLocks_lock?, OrdMap.find?_insert, if_neg different,
          Page.find?_getD_locks]
        rfl
      refine ⟨sound.of_same (by rw [nextEq]; rfl) (by rw [nextEq]; rfl) (by rw [nextEq]; exact id)
        sameLock, ?_⟩
      rw [nextEq]
      exact watched.of_same rfl id id
  | external record found _ notInternal =>
      rw [orderly.internal actor record found] at notInternal
      cases notInternal
  | internal _ _ _ _ finished =>
      have forgotten : link.Sound (page.forget actor) client 0 := by
        refine sound.of_same rfl rfl id ?_
        rw [Page.lockCount, Page.forget_lock?, if_neg different]
        rfl
      have stillWatched : link.Watched (page.forget actor) client := watched.of_same rfl id id
      have disjoint : ∀ waiting ∈ waitingClients (page.forget actor).entry.waitlist,
          waiting ∉ (page.forget actor).entry.accesslist.erase actor :=
        fun waiting waits listed =>
          orderly.disjoint waiting waits (OrdSet.mem_erase.mp listed).1
      exact ⟨forgotten.internalLockCompleted disjoint (fun same => absurd same.symm different)
          finished,
        watched_internalLockCompleted (by exact running) (Or.inr stillWatched) disjoint finished⟩

theorem sound_dropClient_other (orderly : page.Orderly) (running : page.terminating = false)
    (different : client ≠ actor) (sound : link.Sound page client 0)
    (watched : link.Watched page client)
    (handled : page.handle (.dropClient actor) results = some next) :
    link.Sound next client 0 ∧ link.Watched next client := by
  rcases Option.map_eq_some_iff.mp handled with ⟨dropped, dropDone, rfl⟩
  have forgotten : link.Sound (page.forget actor) client 0 := by
    refine sound.of_same rfl rfl id ?_
    rw [Page.lockCount, Page.forget_lock?, if_neg different]
    rfl
  have stillWatched : link.Watched (page.forget actor) client := watched.of_same rfl id id
  have disjoint : ∀ waiting ∈ waitingClients (page.forget actor).entry.waitlist,
      waiting ∉ (page.forget actor).entry.accesslist.erase actor :=
    fun waiting waits listed => orderly.disjoint waiting waits (OrdSet.mem_erase.mp listed).1
  have afterLocks : link.Sound dropped client 0 ∧ link.Watched dropped client := by
    rcases Page.dropLocks_cases dropDone with ⟨_, _, _, finished⟩ | ⟨_, rfl⟩
    · exact ⟨forgotten.internalLockCompleted disjoint (fun same => absurd same.symm different)
          finished,
        watched_internalLockCompleted (by exact running) (Or.inr stillWatched) disjoint finished⟩
    · exact ⟨forgotten, stillWatched⟩
  unfold Page.dropClient
  split_ifs
  · exact ⟨(afterLocks.1.removeFromAccesslist actor fun same => absurd same.symm different).of_same
      rfl rfl id rfl, afterLocks.2.of_same rfl id fun listed => (OrdSet.mem_erase.mp listed).1⟩
  · exact afterLocks

theorem flight_deliver (link : Link) (page : Page) (client : MachPort) :
    ({ link with down := link.down ++ page.told client } : Link).flight { page with sent := [] }
      client = link.flight page client := by
  simp [flight, Page.told, Page.messages]

/-- The messages of a handler are put on the queue. -/
theorem Sound.deliver (sound : link.Sound page client debt) :
    ({ link with down := link.down ++ page.told client } : Link).Sound { page with sent := [] }
      client debt := by
  have flightEq := link.flight_deliver page client
  refine ⟨?_, sound.bare, sound.ordered, ?_, ?_, ?_, ?_, ?_⟩
  · rw [flightEq]
    exact sound.asked
  · rw [flightEq]
    exact sound.given
  · rw [flightEq]
    exact sound.unlocks
  · rw [flightEq]
    exact sound.grants
  · rw [flightEq]
    exact sound.listed
  · rw [flightEq]
    exact sound.counted

theorem Watched.deliver (watched : link.Watched page client) :
    ({ link with down := link.down ++ page.told client } : Link).Watched { page with sent := [] }
      client := by
  intro someWait listed
  have revoked := watched someWait listed
  rw [Revoked, ← link.flight_deliver page client] at revoked
  exact revoked

/-- A kernel keeps to the order in which it answers flushes. -/
theorem Watched.act {act : KernelAct} {fresh : ℕ} {kernelPage : KernelPage}
    {reports : List Report} (watched : link.Watched page client)
    (acted : link.page.act fresh act = some (kernelPage, reports)) :
    ({ link with page := kernelPage, up := link.up ++ reports } : Link).Watched page client := by
  intro someWait listed
  rcases watched someWait listed with flushed | ⟨noCopy, noSupply, before, after, split, requests⟩
  · exact Or.inl flushed
  -- with no copy there is nothing to do but to ask for one
  cases act with
  | request write =>
      simp only [KernelPage.act, Option.ite_none_right_eq_some, Option.some_inj] at acted
      rcases acted with ⟨⟨_, _⟩, same⟩
      cases same
      refine Or.inr ⟨noCopy, noSupply, before, after ++ [.request write], ?_, ?_⟩
      · simp [split]
      · intro report reportMem
        rcases List.mem_append.mp reportMem with old | new
        · exact requests report old
        · rw [List.mem_singleton.mp new]
          rfl
  | unlock =>
      simp only [KernelPage.act, noCopy] at acted
      cases acted
  | modify =>
      simp only [KernelPage.act, noCopy] at acted
      cases acted
  | evict =>
      simp only [KernelPage.act, noCopy] at acted
      cases acted

theorem Watched.receive {message : Message} {rest : List Message}
    (watched : link.Watched page client) (first : link.down = message :: rest) :
    ({ link with down := rest, page := (link.page.receive message).1,
                 up := link.up ++ (link.page.receive message).2 } : Link).Watched page
      client := by
  intro someWait listed
  have flightEq : link.flight page client = message :: _ := flight_cons first
  rcases watched someWait listed with
    ⟨before, after, split, noSupply⟩ | ⟨noCopy, noSupply, before, after, split, requests⟩
  · rw [flightEq] at split
    cases before with
    | nil =>
        rw [List.nil_append, List.cons.injEq] at split
        rcases split with ⟨rfl, restEq⟩
        refine Or.inr ⟨rfl, ?_, link.up ++ link.page.giveBack, [], ?_, fun _ => nofun⟩
        · rw [← restEq] at noSupply
          exact noSupply
        · simp [KernelPage.receive]
    | cons head before =>
        rw [List.cons_append, List.cons.injEq] at split
        exact Or.inl ⟨before, after, split.2, noSupply⟩
  · rw [flightEq] at noSupply
    have notSupply := noSupply message List.mem_cons_self
    have stillNone := noSupply.tail
    cases message with
    | supply => cases notSupply
    | error =>
        refine Or.inr ⟨noCopy, stillNone, before, after, ?_, requests⟩
        simp [KernelPage.receive, split]
    | flush =>
        refine Or.inr ⟨rfl, stillNone, link.up ++ link.page.giveBack, [], ?_, fun _ => nofun⟩
        simp [KernelPage.receive]
    | grant =>
        refine Or.inr ⟨?_, stillNone, before, after, ?_, requests⟩
        · simp [KernelPage.receive, noCopy]
        · simp [KernelPage.receive, split]

theorem Watched.lose (watched : link.Watched page client) :
    ({ link with page := { link.page with copy := none } } : Link).Watched page client := by
  intro someWait listed
  rcases watched someWait listed with flushed | ⟨_, rest⟩
  · exact Or.inl flushed
  · exact Or.inr ⟨rfl, rest⟩

/-- What holds of a kernel on its own: one that is known to be dead has nothing under way. -/
structure Fits (page : Page) (client : MachPort) (link : Link) : Prop where
  dead : link.alive = false → link.page.copy = none
  gone : link.dropped = true → link.alive = false ∧ link.up = [] ∧ link.down = []
  sound : link.dropped = false → link.Sound page client 0
  watched : link.dropped = false → link.Watched page client

theorem Fits.not_dropped (fits : link.Fits page client) (reported : link.up ≠ []) :
    link.dropped = false :=
  Bool.eq_false_iff.mpr fun isDropped => reported (fits.gone isDropped).2.1

theorem Fits.not_dropped_of_alive (fits : link.Fits page client) (alive : link.alive = true) :
    link.dropped = false := by
  refine Bool.eq_false_iff.mpr fun isDropped => ?_
  rw [(fits.gone isDropped).1] at alive
  cases alive

/-- The messages of a handler are put on the queue of a kernel that is not known to be dead. -/
theorem fits_deliver {links : MachPort → Link}
    (dead : (links client).alive = false → (links client).page.copy = none)
    (gone : (links client).dropped = true →
      (links client).alive = false ∧ (links client).up = [] ∧ (links client).down = [])
    (sound : (links client).dropped = false →
      (links client).Sound page client 0 ∧ (links client).Watched page client) :
    (Spot.deliver links page client).Fits { page with sent := [] } client := by
  unfold Spot.deliver
  split_ifs with isDropped
  · exact ⟨dead, gone, fun known => absurd (known.symm.trans isDropped) nofun,
      fun known => absurd (known.symm.trans isDropped) nofun⟩
  · have known := Bool.eq_false_iff.mpr isDropped
    exact ⟨dead, fun now => absurd now isDropped, fun _ => (sound known).1.deliver,
      fun _ => (sound known).2.deliver⟩

end Link

namespace Spot

variable {spot next : Spot}

/-- Every kernel fits what the pager has recorded of it. -/
structure Sound (spot : Spot) : Prop where
  orderly : spot.page.Orderly
  fits : ∀ client, (spot.links client).Fits spot.page client

/-- The handler takes neither of the branches that send an answer nobody asked for. -/
def Balances (page : Page) (input : PageInput) (_ : PageCallbacks) : Prop :=
  ¬page.Unbalances input

/-- A handler keeps the page orderly. -/
theorem Sound.orderly_handle {client : MachPort} {report : Report} {rest : List Report}
    {input : PageInput} {results : PageCallbacks} {next : Page} (idle : spot.Idle)
    (sound : spot.Sound) (first : (spot.links client).up = report :: rest)
    (asks : report.Asks client input) (isAllowed : Balances spot.page input results)
    (handled : spot.page.handle input results = some next) : next.Orderly := by
  have link := (sound.fits client).sound
    ((sound.fits client).not_dropped (by rw [first]; exact nofun))
  cases asks with
  | request write =>
      refine sound.orderly.dataRequest idle.notPagingout idle.running ?_ handled
      rw [← List.count_eq_zero]
      have asked := link.asked
      rw [first, List.countP_cons_of_pos rfl] at asked
      split_ifs at asked
      · omega
      · omega
  | unlock others => exact sound.orderly.dataUnlock isAllowed handled
  | giveBack version dirty any => exact sound.orderly.dataReturn handled
  | lockCompleted => exact sound.orderly.lockCompleted idle.running handled

/-- A handler is sound for the kernel whose report it handles. -/
theorem Sound.handle_own {client : MachPort} {report : Report} {rest : List Report}
    {input : PageInput} {results : PageCallbacks} {next : Page} (idle : spot.Idle)
    (sound : spot.Sound) (first : (spot.links client).up = report :: rest)
    (asks : report.Asks client input) (isAllowed : Balances spot.page input results)
    (handled : spot.page.handle input results = some next) :
    ({ spot.links client with up := rest } : Link).Sound next client 0 ∧
      ({ spot.links client with up := rest } : Link).Watched next client := by
  have known := (sound.fits client).not_dropped (by rw [first]; exact nofun)
  have link := (sound.fits client).sound known
  have watched := (sound.fits client).watched known
  cases asks with
  | request write =>
      have popped := link.pop first nofun
      have settled := link.settled_of_request first
      refine ⟨Link.Sound.dataRequest idle.notPagingout sound.orderly isAllowed
        (by rw [if_pos rfl]; exact popped) (fun _ => settled) handled, ?_⟩
      exact Link.watched_dataRequest idle.notPagingout idle.running sound.orderly
        (watched.pop first nofun) handled
  | unlock others =>
      exact ⟨(link.pop first nofun).dataUnlock isAllowed
          (fun _ => link.unlocking_of_unlock first) handled,
        Link.watched_dataUnlock isAllowed (watched.pop first nofun) handled⟩
  | giveBack version dirty any =>
      exact ⟨(link.pop first nofun).dataReturn sound.orderly
          (fun _ => link.bare_of_giveBack first) handled,
        Link.watched_dataReturn sound.orderly idle.running (watched.pop first nofun) handled⟩
  | lockCompleted =>
      exact Link.sound_lockCompleted_own sound.orderly idle.running link watched first handled

/-- A handler is sound for the other kernels. -/
theorem Sound.handle_other {client other : MachPort} {report : Report} {input : PageInput}
    {results : PageCallbacks} {next : Page} (idle : spot.Idle) (sound : spot.Sound)
    (asks : report.Asks client input) (different : other ≠ client)
    (known : (spot.links other).dropped = false) (isAllowed : Balances spot.page input results)
    (handled : spot.page.handle input results = some next) :
    (spot.links other).Sound next other 0 ∧ (spot.links other).Watched next other := by
  have link := (sound.fits other).sound known
  have watched := (sound.fits other).watched known
  cases asks with
  | request write =>
      refine ⟨Link.Sound.dataRequest idle.notPagingout sound.orderly isAllowed
        (by rw [if_neg different]; exact link) (fun same => absurd same different) handled, ?_⟩
      exact Link.watched_dataRequest idle.notPagingout idle.running sound.orderly watched handled
  | unlock others =>
      exact ⟨link.dataUnlock isAllowed (fun same => absurd same different) handled,
        Link.watched_dataUnlock isAllowed watched handled⟩
  | giveBack version dirty any =>
      exact ⟨link.dataReturn sound.orderly (fun same => absurd same different) handled,
        Link.watched_dataReturn sound.orderly idle.running watched handled⟩
  | lockCompleted =>
      exact Link.sound_lockCompleted_other sound.orderly idle.running different link watched
        handled

/-- A kernel changes its side of the page. -/
theorem Sound.update (sound : spot.Sound) {client : MachPort} {link : Link} (newest : ℕ)
    (fits : link.Fits spot.page client) :
    ({ spot with links := Function.update spot.links client link, newest } : Spot).Sound := by
  refine ⟨sound.orderly, fun other => ?_⟩
  by_cases same : other = client
  · subst same
    simp only [Function.update_self]
    exact fits
  · simp only [Function.update_of_ne same]
    exact sound.fits other

/-- Every step keeps kernels and pager in accord. -/
theorem Sound.step (idle : spot.Idle) (sound : spot.Sound) (stepped : Step Balances spot next) :
    next.Sound := by
  cases stepped with
  | still => exact sound
  | act alive acted =>
      rename_i client act page reports
      have fits := sound.fits client
      have known := fits.not_dropped_of_alive alive
      refine sound.update _ ⟨?_, ?_, ?_, ?_⟩
      · exact fun dead => absurd (dead.symm.trans alive) nofun
      · exact fun isDropped => absurd (known.symm.trans isDropped) nofun
      · exact fun _ => (fits.sound known).act acted
      · exact fun _ => (fits.watched known).act acted
  | receive alive first =>
      rename_i client message rest
      have fits := sound.fits client
      have known := fits.not_dropped_of_alive alive
      refine sound.update _ ⟨?_, ?_, ?_, ?_⟩
      · exact fun dead => absurd (dead.symm.trans alive) nofun
      · exact fun isDropped => absurd (known.symm.trans isDropped) nofun
      · exact fun _ => (fits.sound known).receive first
      · exact fun _ => (fits.watched known).receive first
  | die alive =>
      rename_i client
      have fits := sound.fits client
      have known := fits.not_dropped_of_alive alive
      refine sound.update _ ⟨?_, ?_, ?_, ?_⟩
      · exact fun _ => rfl
      · exact fun isDropped => absurd (known.symm.trans isDropped) nofun
      · intro _
        rcases (fits.sound known).lose with
          ⟨asked, bare, ordered, given, unlocks, grants, listed, counted⟩
        exact ⟨asked, bare, ordered, given, unlocks, grants, listed, counted⟩
      · exact fun _ => (fits.watched known).lose
  | handle first asks reads isAllowed handled =>
      rename_i client report rest input results page
      refine ⟨(sound.orderly_handle idle first asks isAllowed handled).of_fewer rfl (fun _ => id)
        rfl, fun other => ?_⟩
      have fits := sound.fits other
      by_cases same : other = client
      · subst same
        refine Link.fits_deliver ?_ ?_ ?_
        · rw [Function.update_self]
          exact fits.dead
        · rw [Function.update_self]
          exact fun isDropped => absurd (fits.gone isDropped).2.1 (by rw [first]; exact nofun)
        · rw [Function.update_self]
          exact fun _ => sound.handle_own idle first asks isAllowed handled
      · refine Link.fits_deliver ?_ ?_ ?_
        · rw [Function.update_of_ne same]
          exact fits.dead
        · rw [Function.update_of_ne same]
          exact fits.gone
        · rw [Function.update_of_ne same]
          exact fun known => sound.handle_other idle asks same known isAllowed handled
  | drop dead known nothing reads isAllowed handled =>
      rename_i client results page
      refine ⟨(sound.orderly.dropClient idle.running handled).of_fewer rfl (fun _ => id) rfl,
        fun other => ?_⟩
      have fits := sound.fits other
      by_cases same : other = client
      · subst same
        refine Link.fits_deliver ?_ ?_ ?_
        · rw [Function.update_self]
          exact fits.dead
        · rw [Function.update_self]
          exact fun _ => ⟨dead, nothing, rfl⟩
        · rw [Function.update_self]
          exact nofun
      · refine Link.fits_deliver ?_ ?_ ?_
        · rw [Function.update_of_ne same]
          exact fits.dead
        · rw [Function.update_of_ne same]
          exact fits.gone
        · rw [Function.update_of_ne same]
          exact fun otherKnown => Link.sound_dropClient_other sound.orderly idle.running same
            (fits.sound otherKnown) (fits.watched otherKnown) handled

end Spot

namespace System

theorem create_sound (pageSize : ℕ) (pageSize_pos : 0 < pageSize) (mayCache : Bool)
    (copyStrategy : ℕ) (notifyOnEvict : Bool) (number : ℕ) :
    ((create pageSize pageSize_pos mayCache copyStrategy notifyOnEvict).spot number).Sound := by
  refine ⟨.of_nil rfl fun _ _ => nofun, fun client => ⟨nofun, nofun, fun _ => ?_, fun _ => ?_⟩⟩
  · refine ⟨Nat.le_refl 0, nofun, .nil, fun _ _ => nofun, nofun, ?_, ?_, rfl⟩
    · intro before after split
      have nothing : [] = before ++ Message.grant :: after := split
      simp at nothing
    · rintro (holds | supplied)
      · exact absurd rfl holds
      · exact absurd (fun _ => nofun) supplied
  · exact Link.watched_of_nil rfl

/-- A client that holds a copy of a page, or is being sent one, is on its ACCESSLIST. -/
theorem listed_of_reachable {pageSize : ℕ} (pageSize_pos : 0 < pageSize) (mayCache : Bool)
    (copyStrategy : ℕ) (notifyOnEvict : Bool) {system : System}
    (reached : Transition.Reachable step (Allows Spot.Balances)
      (create pageSize pageSize_pos mayCache copyStrategy notifyOnEvict) system)
    (client : MachPort) (number : ℕ)
    (possesses : ((system.kernels client).pages number).copy ≠ none ∨
      ∃ data write precious,
        (number, .supply data write precious) ∈ (system.kernels client).down) :
    client ∈ (system.pager.pagemap number).accesslist := by
  rcases invariant_of_reachable Spot.Sound
    (fun number => create_sound pageSize pageSize_pos mayCache copyStrategy notifyOnEvict number)
    Spot.Sound.step reached with ⟨-, sound⟩
  have fits := (sound number).fits client
  cases dropped : (system.kernels client).dropped with
  | true =>
      rcases fits.gone dropped with ⟨dead, -, noneDown⟩
      rcases possesses with holds | ⟨data, write, precious, sent⟩
      · exact absurd (fits.dead dead) holds
      · have onQueue : .supply data write precious ∈ ((system.kernels client).link number).down :=
          List.mem_filterMap.mpr ⟨_, sent, if_pos rfl⟩
        rw [show ((system.kernels client).link number).down = [] from noneDown] at onQueue
        cases onQueue
  | false =>
      refine (fits.sound dropped).listed (possesses.imp_right ?_)
      rintro ⟨data, write, precious, sent⟩ noSupply
      have onQueue : .supply data write precious ∈ ((system.kernels client).link number).down :=
        List.mem_filterMap.mpr ⟨_, sent, if_pos rfl⟩
      cases noSupply _ (List.mem_append_left _ onQueue)

/--
Two kernels read a page and the first asks to unlock it.  Both are flushed, and when both
have answered the page is sent to the first, read-only, though it has not asked for it again.
It does so while the page is on its way.  The second kernel asks for write access, and when
the pager comes to the first kernel's request it takes it off ACCESSLIST for the second.
-/
def unaskedPageRun : List Action :=
  let readOnly : Callbacks := fun _ => { read := { writeLock := true } }
  [.act 1 0 (.request false), .handle 1 fun _ => {}, .receive 1, .act 2 0 (.request false),
    .handle 2 fun _ => {}, .receive 2, .act 1 0 .unlock, .handle 1 fun _ => {}, .receive 1,
    .receive 2, .handle 1 fun _ => {}, .handle 2 readOnly, .act 1 0 (.request false), .receive 1,
    .act 2 0 (.request true), .handle 2 fun _ => {}, .handle 1 fun _ => {}]

theorem unaskedPageRun_not_listed :
    ∃ system, Transition.run step unaskedPageRun (create 1 (by decide) false 0 false) =
        some system ∧
      ((system.kernels 1).pages 0).copy ≠ none ∧ 1 ∉ (system.pager.pagemap 0).accesslist := by
  refine ⟨_, rfl, by decide, by decide⟩

/-- A kernel asks for a page, and the pager sends it. -/
def suppliedRun : List Action :=
  [.act 1 0 (.request false), .handle 1 fun _ => {}]

theorem listed_after_supply :
    ∃ system, Transition.run step suppliedRun (create 1 (by decide) false 0 false) =
        some system ∧ 1 ∈ (system.pager.pagemap 0).accesslist := by
  refine ⟨_, rfl, listed_of_reachable (show 0 < 1 by decide) false 0 false
    (Transition.Reachable.start.of_run suppliedRun ⟨nofun, ?_⟩ rfl) 1 0
    (Or.inr ⟨0, false, false, by decide⟩)⟩
  rintro _ ⟨⟩
  refine ⟨?_, fun _ _ => trivial⟩
  rintro _ ⟨⟩ number pageInput reaches unbalances
  cases reaches
  exact absurd unbalances.2.2.2.1 (by decide)

end System

end Hurd.Libpager
