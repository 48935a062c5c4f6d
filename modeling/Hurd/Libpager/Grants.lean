import Hurd.Libpager.Possession
import Hurd.Libpager.Transfer

/-!
# Who writes and who reads

A kernel that can write a page, or has given back what it wrote, makes the page one that is
granted for writing (`Link.Writes`), and a kernel that can only read it makes the page one
that is not (`Link.Reads`).  Both are kept by every handler that gives access away as
`Page.Transfer` says, since the clients it is given to have nothing else of the page.
-/

namespace Hurd.Libpager

namespace Page

variable {page : Page} {client : MachPort}

theorem mem_told {message : Message} :
    message ∈ page.told client ↔ (client, message) ∈ page.messages := by
  simp only [told, List.mem_filterMap, Option.ite_none_right_eq_some, Option.some_inj,
    Prod.exists]
  constructor
  · rintro ⟨other, sent, mem, rfl, rfl⟩
    exact mem
  · exact fun mem => ⟨client, message, mem, rfl, rfl⟩

theorem gift_of_supply {data : ℕ} {write precious : Bool}
    (told : .supply data write precious ∈ page.told client) :
    .supply client data write ∈ page.gifts := by
  rcases List.mem_filterMap.mp (mem_told.mp told) with ⟨event, sent, isSupply⟩
  refine List.mem_filterMap.mpr ⟨event, sent, ?_⟩
  cases event with
  | dataSupply =>
      simp only [PageEvent.message?, Option.some_inj, Prod.mk.injEq, Message.supply.injEq] at isSupply
      rcases isSupply with ⟨rfl, rfl, rfl, -⟩
      rfl
  | lockRequest _ _ shouldFlush => cases shouldFlush <;> simp [PageEvent.message?] at isSupply
  | _ => simp [PageEvent.message?] at isSupply

theorem gift_of_grant (told : .grant ∈ page.told client) : .grant client ∈ page.gifts := by
  rcases List.mem_filterMap.mp (mem_told.mp told) with ⟨event, sent, isGrant⟩
  refine List.mem_filterMap.mpr ⟨event, sent, ?_⟩
  cases event with
  | lockRequest _ _ shouldFlush =>
      cases shouldFlush
      · simp only [PageEvent.message?, Bool.false_eq_true, if_false, Option.some_inj,
          Prod.mk.injEq, and_true] at isGrant
        subst isGrant
        rfl
      · simp [PageEvent.message?] at isGrant
  | _ => simp [PageEvent.message?] at isGrant

theorem told_of_supply {data : ℕ} {write : Bool} (given : .supply client data write ∈ page.gifts) :
    ∃ precious, .supply data write precious ∈ page.told client := by
  rcases List.mem_filterMap.mp given with ⟨event, sent, isSupply⟩
  cases event with
  | dataSupply accesslist other contents deallocate lockValue precious =>
      simp only [PageEvent.gift?, Option.some_inj, Gift.supply.injEq] at isSupply
      rcases isSupply with ⟨rfl, rfl, rfl⟩
      refine ⟨precious, mem_told.mpr (List.mem_filterMap.mpr ⟨_, sent, rfl⟩)⟩
  | lockRequest _ _ shouldFlush => cases shouldFlush <;> simp [PageEvent.gift?] at isSupply
  | _ => simp [PageEvent.gift?] at isSupply

theorem told_of_grant (given : .grant client ∈ page.gifts) : .grant ∈ page.told client := by
  rcases List.mem_filterMap.mp given with ⟨event, sent, isGrant⟩
  cases event with
  | lockRequest other _ shouldFlush =>
      cases shouldFlush
      · simp only [PageEvent.gift?, Bool.false_eq_true, if_false, Option.some_inj,
          Gift.grant.injEq] at isGrant
        subst isGrant
        exact mem_told.mpr (List.mem_filterMap.mpr ⟨_, sent, rfl⟩)
      · simp [PageEvent.gift?] at isGrant
  | _ => simp [PageEvent.gift?] at isGrant

end Page

namespace KernelPage

variable {page next : KernelPage} {reports : List Report} {fresh : ℕ}

/-- What a kernel can do of its own accord. -/
inductive Acted (page : KernelPage) (fresh : ℕ) : KernelAct → KernelPage → List Report → Prop
  | request (write : Bool) (noCopy : page.copy = none) (notPending : page.pending = .none) :
      Acted page fresh (.request write) { page with pending := .request } [.request write]
  | unlock (copy : Copy) (holds : page.copy = some copy) (readOnly : copy.write = false)
      (notPending : page.pending = .none) :
      Acted page fresh .unlock { page with pending := .unlock } [.unlock]
  | modify (copy : Copy) (holds : page.copy = some copy) (canWrite : copy.write = true) :
      Acted page fresh .modify
        { page with copy := some { copy with version := fresh, dirty := true } } []
  | evict (copy : Copy) (holds : page.copy = some copy) :
      Acted page fresh .evict { copy := none, pending := page.pending.settle .unlock }
        page.giveBack

theorem act_cases {act : KernelAct} (acted : page.act fresh act = some (next, reports)) :
    Acted page fresh act next reports := by
  cases act with
  | request write =>
      simp only [KernelPage.act, Option.ite_none_right_eq_some, Option.some_inj,
        Prod.mk.injEq] at acted
      rcases acted with ⟨⟨noCopy, notPending⟩, rfl, rfl⟩
      exact .request write noCopy notPending
  | unlock =>
      cases holds : page.copy with
      | none => simp [KernelPage.act, holds] at acted
      | some copy =>
          simp only [KernelPage.act, holds, Option.ite_none_right_eq_some, Option.some_inj,
            Prod.mk.injEq] at acted
          rcases acted with ⟨⟨readOnly, notPending⟩, rfl, rfl⟩
          rw [← holds]
          exact .unlock copy holds readOnly notPending
  | modify =>
      cases holds : page.copy with
      | none => simp [KernelPage.act, holds] at acted
      | some copy =>
          simp only [KernelPage.act, holds, Option.ite_none_right_eq_some, Option.some_inj,
            Prod.mk.injEq] at acted
          rcases acted with ⟨canWrite, rfl, rfl⟩
          exact .modify copy holds canWrite
  | evict =>
      cases holds : page.copy with
      | none => simp [KernelPage.act, holds] at acted
      | some copy =>
          simp only [KernelPage.act, holds, Option.some_inj, Prod.mk.injEq] at acted
          rcases acted with ⟨rfl, rfl⟩
          exact .evict copy holds

theorem mem_giveBack {report : Report} (given : report ∈ page.giveBack) :
    ∃ copy ∈ page.copy, report = .giveBack copy.version copy.dirty := by
  cases holds : page.copy with
  | none => simp [giveBack, holds] at given
  | some copy =>
      simp only [giveBack, holds] at given
      split_ifs at given
      · exact ⟨copy, rfl, List.mem_singleton.mp given⟩
      · cases given

end KernelPage

namespace Link

/-- The kernel can write the page, or will be able to, or has given back what it wrote. -/
def Writes (link : Link) : Prop :=
  (∃ copy ∈ link.page.copy, copy.write = true ∨ .grant ∈ link.down) ∨
    (∃ data precious, .supply data true precious ∈ link.down) ∨
    ∃ version, .giveBack version true ∈ link.up

/-- The kernel can only read the page, or will be able to, or has asked to write it. -/
def Reads (link : Link) : Prop :=
  (∃ copy ∈ link.page.copy, copy.write = false ∧ .grant ∉ link.down) ∨
    (∃ data precious, .supply data false precious ∈ link.down) ∨ .unlock ∈ link.up

variable {page next : Page} {client : MachPort} {link : Link} {debt : ℕ}

theorem flight_of_nothing (nothingSent : page.sent = []) :
    link.flight page client = link.down := by
  simp [flight, Page.told, Page.messages, nothingSent]

/-- Whoever writes a page is on its ACCESSLIST. -/
theorem Writes.listed (writes : link.Writes) (sound : link.Sound page client debt) :
    client ∈ page.entry.accesslist := by
  rcases writes with ⟨copy, holds, -⟩ | ⟨data, precious, supplied⟩ | ⟨version, given⟩
  · apply sound.listed
    left
    rw [show link.page.copy = some copy from holds]
    nofun
  · apply sound.listed
    right
    intro noSupply
    cases noSupply _ (List.mem_append_left _ supplied)
  · exact (sound.given version true given).1

/-- Whoever reads a page is on its ACCESSLIST. -/
theorem Reads.listed (reads : link.Reads) (sound : link.Sound page client debt) :
    client ∈ page.entry.accesslist := by
  rcases reads with ⟨copy, holds, -⟩ | ⟨data, precious, supplied⟩ | unlocking
  · apply sound.listed
    left
    rw [show link.page.copy = some copy from holds]
    nofun
  · apply sound.listed
    right
    intro noSupply
    cases noSupply _ (List.mem_append_left _ supplied)
  · exact (sound.unlocks unlocking).1

/-- A kernel that is being sent a page has nothing else of it. -/
theorem Sound.only_supply {data : ℕ} {write precious : Bool} (sound : link.Sound page client debt)
    (nothingSent : page.sent = [])
    (supplied : .supply data write precious ∈ link.down) :
    link.page.copy = none ∧ (∀ version dirty, .giveBack version dirty ∉ link.up) ∧
      .unlock ∉ link.up ∧ link.down.countP Message.isAnswer = 1 := by
  have flightEq : link.flight page client = link.down := flight_of_nothing nothingSent
  have asked := sound.asked
  rw [flightEq] at asked
  have some : 0 < link.down.countP Message.isAnswer :=
    List.countP_pos_iff.mpr ⟨_, supplied, rfl⟩
  have notNone : ¬NoSupply (link.flight page client) := by
    intro noSupply
    rw [flightEq] at noSupply
    cases noSupply _ supplied
  refine ⟨sound.bare ?_, fun version dirty given => ?_, fun unlocking => ?_, ?_⟩
  · by_contra notAsking
    rw [if_neg notAsking] at asked
    omega
  · exact notNone (sound.given version dirty given).2.2.1
  · exact notNone (sound.unlocks unlocking).2.2.1
  · split_ifs at asked <;> omega

section Handler

variable {data : ℕ} {written : List Gift} {again : Prop} {rest : List Report}

/-- The link once the handler's messages are on their way. -/
def after (link : Link) (rest : List Report) (next : Page) (client : MachPort) : Link :=
  { link with up := rest, down := link.down ++ next.told client }

/-- A kernel that the handler has sent a page has no other page under way to it. -/
theorem told_of_supplied {write otherWrite precious : Bool} {other : ℕ}
    (sound : (link.after rest next client).Sound { next with sent := [] } client debt)
    (given : .supply client data write ∈ next.gifts)
    (supplied : .supply other otherWrite precious ∈ (link.after rest next client).down) :
    .supply other otherWrite precious ∈ next.told client := by
  rcases Page.told_of_supply given with ⟨now, told⟩
  rcases List.mem_append.mp supplied with before | told'
  · have only := (sound.only_supply rfl (List.mem_append_right _ told)).2.2.2
    have twice : 2 ≤ (link.after rest next client).down.countP Message.isAnswer := by
      rw [after, List.countP_append]
      have first : 0 < link.down.countP Message.isAnswer :=
        List.countP_pos_iff.mpr ⟨_, before, rfl⟩
      have second : 0 < (next.told client).countP Message.isAnswer :=
        List.countP_pos_iff.mpr ⟨_, told, rfl⟩
      omega
    omega
  · exact told'

/-- What a handler gives away, when it had given nothing before. -/
theorem mem_gifts {batch : List Gift} {gift : Gift} (nothingSent : page.sent = [])
    (gifts : next.gifts = page.gifts ++ batch) (given : gift ∈ next.gifts) : gift ∈ batch := by
  rw [gifts, Page.gifts, nothingSent] at given
  exact given

/-- A handler that hands the page off once keeps writers to pages granted for writing. -/
theorem Writes.granted (transfer : page.Transfer data written False next)
    (wrote : ∀ gift ∈ written, ∃ data, gift = .write data) (nothingSent : page.sent = [])
    (sound : (link.after rest next client).Sound { next with sent := [] } client debt)
    (fewer : ∀ report ∈ rest, report ∈ link.up)
    (before : link.Writes → page.entry.writeAccessGranted = true)
    (writes : (link.after rest next client).Writes) :
    next.entry.writeAccessGranted = true := by
  -- a kernel that has been given nothing has written before
  have old : (∀ data, .supply client data true ∉ next.gifts) → .grant client ∉ next.gifts →
      page.entry.writeAccessGranted = true := by
    intro notSupplied notGranted
    apply before
    rcases writes with ⟨copy, holds, canWrite | granted⟩ | ⟨contents, precious, supplied⟩ |
      ⟨version, given⟩
    · exact Or.inl ⟨copy, holds, Or.inl canWrite⟩
    · rcases List.mem_append.mp granted with wasGranted | told
      · exact Or.inl ⟨copy, holds, Or.inr wasGranted⟩
      · exact absurd (Page.gift_of_grant told) notGranted
    · rcases List.mem_append.mp supplied with wasSupplied | told
      · exact Or.inr (Or.inl ⟨contents, precious, wasSupplied⟩)
      · exact absurd (Page.gift_of_supply told) (notSupplied contents)
    · exact Or.inr (Or.inr ⟨version, fewer _ given⟩)
  have listed := writes.listed sound
  cases transfer with
  | keeps gifts granted =>
      rw [granted]
      apply old
      · intro contents given
        rcases wrote _ (mem_gifts nothingSent gifts given) with ⟨_, isWrite⟩
        cases isWrite
      · intro given
        rcases wrote _ (mem_gifts nothingSent gifts given) with ⟨_, isWrite⟩
        cases isWrite
  | clears _ nobody => exact absurd listed (nobody client)
  | serves batch write gifts granted holders =>
      rw [granted]
      rw [List.append_assoc] at gifts
      have notGranted : .grant client ∉ next.gifts := by
        intro given
        rcases List.mem_append.mp (mem_gifts nothingSent gifts given) with toBatch | inWritten
        · simp at toBatch
        · rcases wrote _ inWritten with ⟨_, isWrite⟩
          cases isWrite
      have mode : ∀ contents otherWrite, .supply client contents otherWrite ∈ next.gifts →
          otherWrite = write := by
        intro contents otherWrite given
        rcases List.mem_append.mp (mem_gifts nothingSent gifts given) with toBatch | inWritten
        · simp only [List.mem_map, Gift.supply.injEq] at toBatch
          rcases toBatch with ⟨_, -, -, -, rfl⟩
          rfl
        · rcases wrote _ inWritten with ⟨_, isWrite⟩
          cases isWrite
      rcases holders with ⟨wasNot, reader⟩ | allServed
      · have was := old (fun contents given => by
          have isWrite := mode contents true given
          rw [reader] at isWrite
          cases isWrite) notGranted
        rw [wasNot] at was
        cases was
      · have given : .supply client data write ∈ next.gifts := by
          rw [gifts]
          apply List.mem_append_right
          apply List.mem_append_left
          exact List.mem_map.mpr ⟨client, allServed client listed, rfl⟩
        rcases Page.told_of_supply given with ⟨precious, told⟩
        rcases sound.only_supply rfl (List.mem_append_right _ told) with
          ⟨noCopy, notGiven, -, -⟩
        rcases writes with ⟨copy, holds, -⟩ | ⟨contents, _, supplied⟩ | ⟨version, back⟩
        · rw [show (link.after rest next client).page.copy = some copy from holds] at noCopy
          cases noCopy
        · exact (mode contents true
            (Page.gift_of_supply (told_of_supplied sound given supplied))).symm
        · exact absurd back (notGiven version true)
  | grants _ _ granted => exact granted
  | twice again => cases again

/-- A handler keeps readers to pages that are not granted for writing. -/
theorem Reads.not_granted (transfer : page.Transfer data written again next)
    (wrote : ∀ gift ∈ written, ∃ data, gift = .write data) (nothingSent : page.sent = [])
    (sound : (link.after rest next client).Sound { next with sent := [] } client debt)
    (fewer : ∀ report ∈ rest, report ∈ link.up)
    (before : link.Reads → page.entry.writeAccessGranted = false)
    (reads : (link.after rest next client).Reads) :
    next.entry.writeAccessGranted = false := by
  have listed := reads.listed sound
  cases transfer with
  | keeps gifts granted =>
      rw [granted]
      apply before
      rcases reads with ⟨copy, holds, readOnly, notGranted⟩ | ⟨contents, precious, supplied⟩ |
        unlocking
      · refine Or.inl ⟨copy, holds, readOnly, fun granted => notGranted ?_⟩
        exact List.mem_append_left _ granted
      · rcases List.mem_append.mp supplied with wasSupplied | told
        · exact Or.inr (Or.inl ⟨contents, precious, wasSupplied⟩)
        · rcases wrote _ (mem_gifts nothingSent gifts (Page.gift_of_supply told)) with ⟨_, isWrite⟩
          cases isWrite
      · exact Or.inr (Or.inr (fewer _ unlocking))
  | clears _ nobody => exact absurd listed (nobody client)
  | serves batch write gifts granted holders =>
      rw [granted]
      rw [List.append_assoc] at gifts
      rcases holders with ⟨-, reader⟩ | allServed
      · exact reader
      have given : .supply client data write ∈ next.gifts := by
        rw [gifts]
        apply List.mem_append_right
        apply List.mem_append_left
        exact List.mem_map.mpr ⟨client, allServed client listed, rfl⟩
      rcases Page.told_of_supply given with ⟨precious, told⟩
      rcases sound.only_supply rfl (List.mem_append_right _ told) with
        ⟨noCopy, -, notUnlocking, -⟩
      rcases reads with ⟨copy, holds, -⟩ | ⟨contents, _, supplied⟩ | unlocking
      · rw [show (link.after rest next client).page.copy = some copy from holds] at noCopy
        cases noCopy
      · have sent := Page.gift_of_supply (told_of_supplied sound given supplied)
        rcases List.mem_append.mp (mem_gifts nothingSent gifts sent) with toBatch | inWritten
        · simp only [List.mem_map, Gift.supply.injEq] at toBatch
          rcases toBatch with ⟨_, -, -, -, isWrite⟩
          exact isWrite
        · rcases wrote _ inWritten with ⟨_, isWrite⟩
          cases isWrite
      · exact absurd unlocking notUnlocking
  | grants other gifts granted holders =>
      have isOther := holders client listed
      subst isOther
      have given : .grant client ∈ next.gifts := by
        rw [gifts]
        simp
      have told := Page.told_of_grant given
      rw [List.append_assoc] at gifts
      rcases reads with ⟨copy, _, -, notGranted⟩ | ⟨contents, precious, supplied⟩ | unlocking
      · exact absurd (List.mem_append_right _ told) notGranted
      · rcases List.mem_append.mp supplied with wasSupplied | now
        · -- the page would have come before the grant
          rcases List.append_of_mem told with ⟨start, stop, split⟩
          have noSupply := (sound.grants (link.down ++ start) stop (by
            rw [flight_of_nothing rfl, after, split, List.append_assoc])).1
          cases noSupply _ (List.mem_append_left _ wasSupplied)
        · have sent := mem_gifts nothingSent gifts (Page.gift_of_supply now)
          rcases List.mem_append.mp sent with isGrant | inWritten
          · simp at isGrant
          · rcases wrote _ inWritten with ⟨_, isWrite⟩
            cases isWrite
      · apply absurd (List.mem_append_right _ told)
        have notInFlight := (sound.unlocks unlocking).2.2.2.2
        rwa [flight_of_nothing rfl] at notInFlight
  | twice _ notGranted => exact notGranted

end Handler

section Kernel

variable {kernelPage : KernelPage} {reports : List Report} {message : Message}
  {rest : List Message}

/-- A kernel that has come to nothing new could write before. -/
theorem Writes.of_fewer {after : Link} (writes : after.Writes)
    (copies : ∀ copy ∈ after.page.copy, (copy.write = true ∨ .grant ∈ after.down) → link.Writes)
    (down : ∀ message ∈ after.down, message ∈ link.down)
    (back : ∀ version, .giveBack version true ∈ after.up →
      .giveBack version true ∈ link.up ∨
        ∃ copy ∈ link.page.copy, copy.dirty = true ∧ copy.write = true) : link.Writes := by
  rcases writes with ⟨copy, holds, canWrite⟩ | ⟨data, precious, supplied⟩ | ⟨version, given⟩
  · exact copies copy holds canWrite
  · exact Or.inr (Or.inl ⟨data, precious, down _ supplied⟩)
  · rcases back version given with before | ⟨copy, held, -, canWrite⟩
    · exact Or.inr (Or.inr ⟨version, before⟩)
    · exact Or.inl ⟨copy, held, Or.inl canWrite⟩

/-- What a kernel gives back dirty it could write. -/
theorem giveBack_writes (dirty : ∀ copy ∈ link.page.copy, copy.dirty = true → copy.write = true)
    {version : ℕ} (given : .giveBack version true ∈ link.up ++ link.page.giveBack) :
    .giveBack version true ∈ link.up ∨
      ∃ copy ∈ link.page.copy, copy.dirty = true ∧ copy.write = true := by
  rcases List.mem_append.mp given with before | now
  · exact Or.inl before
  · rcases KernelPage.mem_giveBack now with ⟨copy, held, same⟩
    simp only [Report.giveBack.injEq] at same
    exact Or.inr ⟨copy, held, same.2.symm, dirty copy held same.2.symm⟩

/-- A kernel that acts of its own accord writes only what it could write before. -/
theorem Writes.of_act {act : KernelAct} {fresh : ℕ}
    (acted : link.page.act fresh act = some (kernelPage, reports))
    (dirty : ∀ copy ∈ link.page.copy, copy.dirty = true → copy.write = true)
    (writes : ({ link with page := kernelPage, up := link.up ++ reports } : Link).Writes) :
    link.Writes := by
  cases KernelPage.act_cases acted with
  | request write noCopy =>
      apply writes.of_fewer
      · exact fun copy holds canWrite => Or.inl ⟨copy, holds, canWrite⟩
      · exact fun _ => id
      · intro version given
        exact Or.inl (by simpa using given)
  | unlock copy holds =>
      apply writes.of_fewer
      · exact fun copy holds canWrite => Or.inl ⟨copy, holds, canWrite⟩
      · exact fun _ => id
      · intro version given
        exact Or.inl (by simpa using given)
  | modify copy holds canWrite => exact Or.inl ⟨copy, holds, Or.inl canWrite⟩
  | evict copy holds =>
      apply writes.of_fewer
      · exact nofun
      · exact fun _ => id
      · exact fun version => giveBack_writes dirty

/-- A kernel that gets a message writes only what it could write before. -/
theorem Writes.of_receive (sound : link.Sound page client debt)
    (first : link.down = message :: rest)
    (dirty : ∀ copy ∈ link.page.copy, copy.dirty = true → copy.write = true)
    (writes : ({ link with down := rest, page := (link.page.receive message).1,
                           up := link.up ++ (link.page.receive message).2 } : Link).Writes) :
    link.Writes := by
  have later : ∀ other ∈ rest, other ∈ link.down := by
    intro other otherMem
    rw [first]
    exact List.mem_cons_of_mem _ otherMem
  cases message with
  | supply data write precious =>
      apply writes.of_fewer
      · intro copy holds canWrite
        cases held : link.page.copy with
        | some was =>
            simp only [KernelPage.receive, held, Option.getD_some, Option.mem_def,
              Option.some_inj] at holds
            subst holds
            exact Or.inl ⟨was, held, canWrite.imp_right (later _)⟩
        | none =>
            simp only [KernelPage.receive, held, Option.getD_none, Option.mem_def,
              Option.some_inj] at holds
            subst holds
            rcases canWrite with canWrite | granted
            · refine Or.inr (Or.inl ⟨data, precious, ?_⟩)
              simp only at canWrite
              rw [first, canWrite]
              exact List.mem_cons_self
            · -- a grant does not come behind a page
              rcases List.append_of_mem granted with ⟨start, stop, split⟩
              simp only at split
              have noSupply := (sound.grants (.supply data write precious :: start)
                (stop ++ page.told client) (by simp [flight, first, split])).1
              cases noSupply _ List.mem_cons_self
      · exact later
      · intro version given
        exact Or.inl (by simpa [KernelPage.receive] using given)
  | error =>
      apply writes.of_fewer
      · exact fun copy holds canWrite => Or.inl ⟨copy, holds, canWrite.imp_right (later _)⟩
      · exact later
      · intro version given
        exact Or.inl (by simpa [KernelPage.receive] using given)
  | flush =>
      apply writes.of_fewer
      · rintro _ ⟨⟩
      · exact later
      · intro version given
        apply giveBack_writes dirty
        simpa [KernelPage.receive] using given
  | grant =>
      apply writes.of_fewer
      · intro copy holds _
        simp only [KernelPage.receive, Option.mem_def, Option.map_eq_some_iff] at holds
        rcases holds with ⟨was, held, -⟩
        refine Or.inl ⟨was, held, Or.inr ?_⟩
        rw [first]
        exact List.mem_cons_self
      · exact later
      · intro version given
        exact Or.inl (by simpa [KernelPage.receive] using given)

/-- A kernel that acts of its own accord reads only what it could read before. -/
theorem Reads.of_act {act : KernelAct} {fresh : ℕ} (sound : link.Sound page client debt)
    (acted : link.page.act fresh act = some (kernelPage, reports))
    (reads : ({ link with page := kernelPage, up := link.up ++ reports } : Link).Reads) :
    link.Reads := by
  cases KernelPage.act_cases acted with
  | request write noCopy =>
      rcases reads with copies | supplied | unlocking
      · exact Or.inl copies
      · exact Or.inr (Or.inl supplied)
      · exact Or.inr (Or.inr (by simpa using unlocking))
  | unlock copy holds readOnly notPending =>
      -- with no unlock pending none has been granted
      refine Or.inl ⟨copy, holds, readOnly, fun granted => ?_⟩
      rcases List.append_of_mem granted with ⟨start, stop, split⟩
      have pending := (sound.grants start (stop ++ page.told client)
        (by simp [flight, split])).2.2 (by simp [holds])
      rw [notPending] at pending
      cases pending
  | modify copy holds canWrite =>
      rcases reads with ⟨_, held, readOnly, notGranted⟩ | supplied | unlocking
      · simp only [Option.mem_def, Option.some_inj] at held
        subst held
        simp [canWrite] at readOnly
      · exact Or.inr (Or.inl supplied)
      · exact Or.inr (Or.inr (by simpa using unlocking))
  | evict copy holds =>
      rcases reads with ⟨_, held, -⟩ | supplied | unlocking
      · cases held
      · exact Or.inr (Or.inl supplied)
      · rcases List.mem_append.mp unlocking with before | now
        · exact Or.inr (Or.inr before)
        · rcases KernelPage.mem_giveBack now with ⟨_, _, same⟩
          cases same

/-- A kernel that gets a message reads only what it could read before. -/
theorem Reads.of_receive (first : link.down = message :: rest)
    (reads : ({ link with down := rest, page := (link.page.receive message).1,
                          up := link.up ++ (link.page.receive message).2 } : Link).Reads) :
    link.Reads := by
  have later : ∀ {other}, other ∈ rest → other ∈ link.down := by
    intro other otherMem
    rw [first]
    exact List.mem_cons_of_mem _ otherMem
  have unlocks : .unlock ∈ link.up ++ (link.page.receive message).2 → .unlock ∈ link.up := by
    intro unlocking
    rcases List.mem_append.mp unlocking with before | now
    · exact before
    · cases message with
      | flush =>
          simp only [KernelPage.receive, List.mem_append, List.mem_singleton] at now
          rcases now with given | completed
          · rcases KernelPage.mem_giveBack given with ⟨_, _, same⟩
            cases same
          · cases completed
      | _ => cases now
  rcases reads with ⟨copy, held, readOnly, notGranted⟩ | ⟨data, precious, supplied⟩ | unlocking
  · cases message with
    | supply data write precious =>
        cases had : link.page.copy with
        | some was =>
            simp only [KernelPage.receive, had, Option.getD_some, Option.mem_def,
              Option.some_inj] at held
            subst held
            refine Or.inl ⟨was, had, readOnly, ?_⟩
            rw [first]
            simpa using notGranted
        | none =>
            simp only [KernelPage.receive, had, Option.getD_none, Option.mem_def,
              Option.some_inj] at held
            subst held
            refine Or.inr (Or.inl ⟨data, precious, ?_⟩)
            simp only at readOnly
            rw [first, readOnly]
            exact List.mem_cons_self
    | error =>
        refine Or.inl ⟨copy, held, readOnly, ?_⟩
        rw [first]
        simpa using notGranted
    | flush => cases held
    | grant =>
        simp only [KernelPage.receive, Option.mem_def, Option.map_eq_some_iff] at held
        rcases held with ⟨was, _, rfl⟩
        cases readOnly
  · exact Or.inr (Or.inl ⟨data, precious, later supplied⟩)
  · exact Or.inr (Or.inr (unlocks unlocking))

end Kernel

end Link

/-- What the pager supplies when it handles a report. -/
def Report.source (results : PageCallbacks) : Report → ℕ
  | .request _ => results.read.buffer
  | .unlock => results.read.buffer
  | .giveBack version _ => version
  | .lockCompleted => results.read.buffer

/-- What the pager writes when it handles a report. -/
def Report.writes : Report → List Gift
  | .giveBack version true => [.write version]
  | _ => []

theorem Report.writes_isWrite {report : Report} :
    ∀ gift ∈ report.writes, ∃ data, gift = .write data := by
  intro gift given
  unfold Report.writes at given
  split at given
  · exact ⟨_, List.mem_singleton.mp given⟩
  · cases given

/-- Nothing is left of the page at a kernel, and nothing is under way. -/
structure Link.Gone (link : Link) : Prop where
  copy : link.page.copy = none
  up : link.up = []
  down : link.down = []

theorem Link.Fits.isGone {page : Page} {client : MachPort} {link : Link}
    (fits : link.Fits page client) (dropped : link.dropped = true) : link.Gone := by
  rcases fits.gone dropped with ⟨dead, up, down⟩
  exact ⟨fits.dead dead, up, down⟩

namespace Spot

variable {spot next : Spot}

/-- A handler that is allowed more is a handler. -/
theorem Step.imp {allowed implied : Page → PageInput → PageCallbacks → Prop}
    (implies : ∀ input results, allowed spot.page input results →
      implied spot.page input results) (stepped : Step allowed spot next) :
    Step implied spot next := by
  cases stepped with
  | still => exact .still
  | act alive acted => exact .act alive acted
  | receive alive first => exact .receive alive first
  | die alive => exact .die alive
  | handle first asks reads isAllowed handled =>
      exact .handle first asks reads (implies _ _ isAllowed) handled
  | drop dead known nothing reads isAllowed handled =>
      exact .drop dead known nothing reads (implies _ _ isAllowed) handled

/-- The page is not given to a second client on top of one that has it. -/
def HandsOffSafely (page : Page) : PageInput → Prop
  | .dataRequest .. => True
  | .dataUnlock .. => ¬page.QueuesUnlock
  | .dataReturn client _ dirty _ _ => dirty = true → ¬page.ServesSecondWriter client
  | .dataReturnUnmatched client _ _ => ¬page.ServesSecondWriter client
  | .lockCompleted _ => True
  | .dropClient _ => True
  | .lockObject _ => True
  | .shutdown => True

/-- What a handler does with access to the page, for a report of a kernel. -/
theorem Sound.transfer {client : MachPort} {report : Report} {input : PageInput}
    {results : PageCallbacks} {after : Page} (idle : spot.Idle) (sound : spot.Sound)
    (exclusive : spot.page.Exclusive) (asks : report.Asks client input)
    (safely : HandsOffSafely spot.page input)
    (handled : spot.page.handle input results = some after) :
    spot.page.Transfer (report.source results) report.writes
        (∃ version, report = .giveBack version true ∧ spot.page.HandsOffTwice client) after ∧
      (results.write = kernSuccess → spot.page.entry.invalid = false →
        after.entry.invalid = false) := by
  cases asks with
  | request write =>
      rcases Page.transfer_dataRequest idle.notPagingout idle.running sound.orderly exclusive
        handled with ⟨transfer, sameInvalid⟩
      exact ⟨transfer, fun _ => sameInvalid.trans⟩
  | unlock others =>
      rcases Page.transfer_dataUnlock safely handled with ⟨transfer, sameInvalid⟩
      exact ⟨transfer, fun _ => sameInvalid.trans⟩
  | giveBack version dirty any =>
      rcases Page.transfer_dataReturn sound.orderly idle.running safely handled with
        ⟨transfer, valid⟩
      refine ⟨?_, valid⟩
      cases dirty with
      | false => exact transfer.imp fun again => by cases again.1
      | true => exact transfer.imp fun again => ⟨version, rfl, again.2⟩
  | lockCompleted =>
      rcases Page.transfer_lockCompleted sound.orderly idle.running handled with
        ⟨transfer, sameInvalid⟩
      exact ⟨transfer, fun _ => sameInvalid.trans⟩

/-- Every kernel gets the messages of a handler, but those known to be dead have nothing. -/
def Follows (spot : Spot) (after : Page) (links : MachPort → Link) : Prop :=
  ∀ other, (links other).Gone ∨ (links other).dropped = false ∧
    ∃ rest, links other = (spot.links other).after rest after other ∧
      ∀ report ∈ rest, report ∈ (spot.links other).up

theorem deliver_of_known {links : MachPort → Link} {client : MachPort} (after : Page)
    (known : (links client).dropped = false) :
    deliver links after client =
      { links client with down := (links client).down ++ after.told client } := by
  unfold deliver
  exact if_neg (by rw [known]; nofun)

theorem Sound.follows_handle (sound : spot.Sound) {client : MachPort} {report : Report}
    {rest : List Report} (first : (spot.links client).up = report :: rest) (after : Page) :
    spot.Follows after (deliver (Function.update spot.links client
      { spot.links client with up := rest }) after) := by
  intro other
  have fits := sound.fits other
  by_cases same : other = client
  · subst same
    have known := fits.not_dropped (by rw [first]; nofun)
    right
    rw [deliver_of_known _ (by rw [Function.update_self]; exact known), Function.update_self]
    refine ⟨known, rest, rfl, fun later laterMem => ?_⟩
    rw [first]
    exact List.mem_cons_of_mem _ laterMem
  · cases known : (spot.links other).dropped with
    | true =>
        left
        simp only [deliver, Function.update_of_ne same, known, if_true]
        exact fits.isGone known
    | false =>
        right
        rw [deliver_of_known _ (by rw [Function.update_of_ne same]; exact known),
          Function.update_of_ne same]
        exact ⟨known, _, rfl, fun _ => id⟩

theorem Sound.follows_drop (sound : spot.Sound) {client : MachPort}
    (dead : (spot.links client).alive = false) (nothing : (spot.links client).up = [])
    (after : Page) :
    spot.Follows after (deliver (Function.update spot.links client
      { spot.links client with dropped := true, down := [] }) after) := by
  intro other
  have fits := sound.fits other
  by_cases same : other = client
  · subst same
    left
    simp only [deliver, Function.update_self, if_true]
    exact ⟨fits.dead dead, nothing, rfl⟩
  · cases known : (spot.links other).dropped with
    | true =>
        left
        simp only [deliver, Function.update_of_ne same, known, if_true]
        exact fits.isGone known
    | false =>
        right
        rw [deliver_of_known _ (by rw [Function.update_of_ne same]; exact known),
          Function.update_of_ne same]
        exact ⟨known, _, rfl, fun _ => id⟩

end Spot

end Hurd.Libpager
