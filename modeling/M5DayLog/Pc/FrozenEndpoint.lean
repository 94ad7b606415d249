import M5DayLog.Pc.WindowsRelease

/-! Release bytes reach only the frozen endpoint. The listings of the interfaces neither write nor close; what follows from
it, one after the other, is the trace of a release up to its one write, and the endpoint in it is the one of the session's
first validation. -/

namespace M5DayLog.Windows

open Bytes Prog

abbrev NativeTrace := Trace NativeOp NativeOp.Ans

section Operations

def NativeOp.isWrite : NativeOp → Bool
  | writeFile _ _ => true
  | _ => false

/-- The calls of a listing of interfaces. -/
def NativeOp.lists : NativeOp → Bool
  | getLastError | getClassDevs _ | enumDeviceInterfaces _ _ _ | getDeviceInterfaceDetail _ _ | destroyDeviceInfoList _ |
    getDeviceId _ | getParent _ | openKey _ | queryValue _ _ | closeKey _ | halt => true
  | _ => false

theorem NativeOp.not_write_of_lists {o : NativeOp} (h : o.lists = true) : o.isWrite = false := by
  cases o <;> first | rfl | cases h

/-- What uses up fuel: an interface that a listing has found, and a look at the clock. -/
def work : (o : NativeOp) → o.Ans → ℕ
  | .enumDeviceInterfaces _ _ _, some _ => 1
  | .monotonic, _ => 1
  | _, _ => 0

abbrev Fueled {α : Type} (S : NativeOp → Prop) (n : ℕ) (p : Prog NativeOp NativeOp.Ans α) : Prop :=
  Within S (· = .halt) work n p

abbrev Listing {α : Type} (n : ℕ) (p : NativeM α) : Prop := Fueled (·.lists = true) n p.run

abbrev Silent {α : Type} (n : ℕ) (p : NativeM α) : Prop := Fueled (·.isWrite = false) n p.run

variable {α β : Type} {S : NativeOp → Prop} {n fuel : ℕ} {host : HostText}

theorem Listing.silent {p : NativeM α} (h : Listing n p) : Silent n p := h.any fun _ => NativeOp.not_write_of_lists

theorem fueled_op {o : NativeOp} (ho : S o) (hhalt : o ≠ .halt) : Fueled S n (.op o) :=
  .call n o _ ho (fun h => absurd h hhalt) fun _ => .ret _ _

theorem fueled_native {o : NativeOp} (ho : S o) (hhalt : o ≠ .halt) : Fueled S n (native o).run :=
  (fueled_op ho hhalt).bind fun _ => .ret n _

theorem fueled_then {o : NativeOp} {f : o.Ans → NativeM β} (ho : S o) (hhalt : o ≠ .halt)
    (hf : ∀ r, Fueled S n (f r).run) : Fueled S n (native o >>= f).run :=
  (fueled_native ho hhalt).bindExcept hf

/-- A call that counts as work uses up fuel. -/
theorem fueled_work {o : NativeOp} {f : o.Ans → NativeM β} (ho : S o) (hhalt : o ≠ .halt)
    (hf : ∀ r, Fueled S (n - work o r) (f r).run) : Fueled S n (native o >>= f).run := by
  show Fueled S n (.call o fun r => (f r).run)
  exact .call n _ _ ho (fun h => absurd h hhalt) hf

theorem fueled_require (exc : ReleaseExc) (a : Option α) : Fueled S n (require exc a).run := by
  cases a <;> exact .ret n _

theorem fueled_withFinally {last : NativeOp} {body : NativeM α} (ho : S last) (hhalt : last ≠ .halt)
    (hbody : Fueled S n body.run) : Fueled S n (withFinally last body).run := by
  apply Within.bind hbody
  intro r
  apply Within.bind (fueled_op ho hhalt)
  exact fun _ => .ret n _

theorem fueled_catchAs {body : NativeM α} {handler : ReleaseExc → NativeM α} (hbody : Fueled S n body.run)
    (hhandler : ∀ e, Fueled S n (handler e).run) : Fueled S n (catchAs body handler).run := by
  apply Within.bind hbody
  intro r
  cases r with
  | ok a => exact .ret n _
  | error e => exact hhandler e

/-- A loop with fuel left comes to a stop only after that many interfaces. -/
theorem fueled_interfaceLoop {σ ρ : Type} {cls : InterfaceClass} {exc : ReleaseExc} {devs : ℕ}
    {each : String → ℕ → σ → NativeM (ρ ⊕ σ)} {done : σ → ρ} (hS : ∀ o, o.lists = true → S o)
    (heach : ∀ n path devInst s, Fueled S n (each path devInst s).run) (fuel index : ℕ) (s : σ) :
    Fueled S fuel (interfaceLoop cls exc devs each done fuel index s).run := by
  induction fuel generalizing index s with
  | zero => exact .call 0 _ _ (hS _ rfl) (fun _ => rfl) fun r => nomatch r
  | succ fuel ih =>
    refine fueled_work (hS _ rfl) nofun fun found => ?_
    cases found with
    | none =>
      refine fueled_then (hS _ rfl) nofun fun error => ?_
      split <;> exact .ret _ _
    | some interface =>
      refine fueled_then (hS _ rfl) nofun fun detail => ?_
      apply Within.bindExcept (fueled_require exc detail)
      intro found
      apply Within.bindExcept (heach _ _ _ s)
      intro next
      cases next with
      | inl r => exact .ret _ _
      | inr s => exact ih (index + 1) s

theorem fueled_forInterfaces {σ ρ : Type} {cls : InterfaceClass} {exc : ReleaseExc}
    {each : String → ℕ → σ → NativeM (ρ ⊕ σ)} {done : σ → ρ} (hS : ∀ o, o.lists = true → S o)
    (heach : ∀ n path devInst s, Fueled S n (each path devInst s).run) (s : σ) :
    Fueled S fuel (forInterfaces cls exc each done fuel s).run := by
  refine fueled_then (hS _ rfl) nofun fun devs => ?_
  apply Within.bindExcept (fueled_require exc devs)
  intro devs
  exact fueled_withFinally (hS _ rfl) nofun (fueled_interfaceLoop hS heach fuel 0 s)

end Operations

section Listings

variable {n fuel : ℕ} {host : HostText}

theorem listing_instanceIdOf (devInst : ℕ) : Listing n (instanceIdOf devInst) :=
  fueled_then rfl nofun fun _ => fueled_require _ _

theorem listing_physicalUsbFrom (steps devInst : ℕ) : Listing n (physicalUsbFrom host steps devInst) := by
  induction steps generalizing devInst with
  | zero => exact .ret n _
  | succ steps ih =>
    apply Within.bindExcept (listing_instanceIdOf devInst)
    intro name
    split
    · exact .ret n _
    · refine fueled_then rfl nofun fun parent => ?_
      cases parent with
      | none => exact .ret n _
      | some parent => exact ih parent

theorem listing_registryPortName (devInst : ℕ) : Listing n (registryPortName devInst) := by
  apply Within.bindExcept (listing_instanceIdOf devInst)
  intro name
  refine fueled_then rfl nofun fun key => ?_
  cases key with
  | none => exact .ret n _
  | some key => exact fueled_withFinally rfl nofun (fueled_native rfl nofun)

theorem listing_matchPort (port path : String) (devInst : ℕ) (matched : List CdcInterface) :
    Listing n (matchPort host port path devInst matched) := by
  apply Within.bindExcept (listing_registryPortName devInst)
  intro assigned
  split
  · split
    · apply Within.bindExcept (listing_physicalUsbFrom 32 devInst)
      intro physical
      apply Within.bindExcept (fueled_require _ physical)
      intro physical
      split
      · exact .ret n _
      · exact (listing_instanceIdOf devInst).bindExcept fun _ => .ret n _
    · exact .ret n _
  · exact .ret n _

/-- A listing neither writes, opens nor closes. -/
theorem listing_cdcInterface (port : String) : Listing fuel (cdcInterface host fuel port) := by
  unfold cdcInterface
  split
  · exact .ret fuel _
  · apply Within.bindExcept
    · apply fueled_forInterfaces fun _ h => h
      intro n path devInst matched
      exact (listing_matchPort port path devInst matched).bindExcept fun _ => .ret n _
    · intro matched
      split <;> exact .ret fuel _

end Listings

section Silence

variable {n fuel : ℕ} {host : HostText}

theorem silent_lists {o : NativeOp} (h : o.lists = true) : o.isWrite = false := NativeOp.not_write_of_lists h

theorem silent_openPath (path : String) (access sharing : ℕ) : Silent n (openPath path access sharing) :=
  fueled_then rfl nofun fun _ => fueled_require _ _

theorem silent_ioctl (handle code outputSize : ℕ) : Silent n (ioctl handle code outputSize) :=
  fueled_then rfl nofun fun _ => fueled_require _ _

theorem silent_withHandle {α : Type} {handle : ℕ} {body : NativeM α} (hbody : Silent n body) :
    Silent n (withFinally (.closeHandle handle) body) :=
  fueled_withFinally rfl nofun hbody

theorem silent_removableFrom (steps devInst : ℕ) : Silent n (removableFrom steps devInst) := by
  induction steps generalizing devInst with
  | zero => exact .ret n _
  | succ steps ih =>
    refine fueled_then rfl nofun fun capabilities => ?_
    split
    · exact (listing_instanceIdOf devInst).silent.bindExcept fun _ => .ret n _
    · refine fueled_then rfl nofun fun parent => ?_
      cases parent with
      | none => exact .ret n _
      | some parent => exact ih parent

theorem silent_volumeGuid (mountRoot : String) : Silent n (volumeGuid host mountRoot) := by
  refine fueled_then rfl nofun fun path => ?_
  apply Within.bindExcept (fueled_require _ path)
  intro path
  split
  · exact .ret n _
  · refine fueled_then rfl nofun fun guid => ?_
    apply Within.bindExcept (fueled_require _ guid)
    intro guid
    split <;> exact .ret n _

theorem silent_volumeDiskNumbers (guid : String) : Silent n (volumeDiskNumbers guid) := by
  apply Within.bindExcept (silent_openPath _ _ _)
  intro handle
  apply silent_withHandle
  apply Within.bindExcept (silent_ioctl _ _ _)
  intro data
  split
  · exact .ret n _
  · split <;> exact .ret n _

theorem silent_describeDisk (path : String) (devInst : ℕ) : Silent n (describeDisk host path devInst) := by
  apply Within.bindExcept (silent_openPath _ _ _)
  intro handle
  apply Within.bindExcept
  · apply silent_withHandle
    apply Within.bindExcept (silent_ioctl _ _ _)
    intro data
    split <;> exact .ret n _
  · intro number
    apply Within.bindExcept (listing_instanceIdOf devInst).silent
    intro name
    apply Within.bindExcept (silent_removableFrom 32 devInst)
    intro removable
    exact (listing_physicalUsbFrom 32 devInst).silent.bindExcept fun _ => .ret n _

theorem silent_diskInterfaces : Silent fuel (diskInterfaces host fuel) := by
  apply fueled_forInterfaces fun _ => silent_lists
  intro n path devInst discovered
  exact (silent_describeDisk path devInst).bindExcept fun _ => .ret n _

theorem silent_diskInstancePresent (instanceId : String) : Silent fuel (diskInstancePresent host fuel instanceId) := by
  unfold diskInstancePresent
  split
  · exact .ret fuel _
  · apply fueled_forInterfaces fun _ => silent_lists
    intro n path devInst _
    exact (listing_instanceIdOf devInst).silent.bindExcept fun _ => .ret n _

theorem silent_mountPointPresent (mountRoot : String) : Silent n (mountPointPresent mountRoot) := by
  unfold mountPointPresent
  split
  · exact .ret n _
  · refine fueled_then rfl nofun fun found => ?_
    split
    · exact .ret n _
    · refine fueled_then rfl nofun fun error => ?_
      split <;> exact .ret n _

theorem silent_lockFailed {α : Type} : Silent n (lockFailed : NativeM α) := by
  refine fueled_then rfl nofun fun error => ?_
  split <;> exact .ret n _

theorem silent_onQuiesceError {α : Type} {body handler : NativeM α} (hbody : Silent n body) (hhandler : Silent n handler) :
    Silent n (onQuiesceError body handler) := by
  apply fueled_catchAs hbody
  intro e
  split
  · exact hhandler
  · exact .ret n _

theorem silent_lockAndDismount (guid : String) : Silent n (lockAndDismount guid) := by
  apply Within.bindExcept (silent_onQuiesceError (silent_openPath _ _ _) silent_lockFailed)
  intro handle
  apply fueled_catchAs
  · apply Within.bindExcept (silent_onQuiesceError (silent_ioctl _ _ _) silent_lockFailed)
    intro _
    apply Within.bindExcept (silent_onQuiesceError (silent_ioctl _ _ _) (.ret n _))
    exact fun _ => .ret n _
  · exact fun _ => fueled_then rfl nofun fun _ => .ret n _

theorem silent_resolveTarget (mountRoot expectedDeviceId : String) :
    Silent fuel (resolveTarget host fuel mountRoot expectedDeviceId) := by
  unfold resolveTarget
  split
  · exact .ret fuel _
  · apply Within.bindExcept (silent_volumeGuid mountRoot)
    intro guid
    apply Within.bindExcept (silent_volumeDiskNumbers guid)
    intro disks
    split
    · split
      · exact .ret fuel _
      · apply Within.bindExcept silent_diskInterfaces
        intro found
        split
        · split <;> exact .ret fuel _
        · exact .ret fuel _
    · exact .ret fuel _

theorem silent_currentDeviceId (mountRoot : String) : Silent n (currentDeviceId mountRoot) := by
  refine fueled_then rfl nofun fun answer => ?_
  cases answer <;> exact .ret n _

theorem silent_revalidateTarget (self : WindowsHostReleasePort) (target : EjectTarget) (cdcPort : String) :
    Silent fuel (revalidateTarget host fuel self target cdcPort) := by
  apply Within.bindExcept (silent_currentDeviceId _)
  intro currentId
  split
  · exact .ret fuel _
  · apply Within.bindExcept (silent_resolveTarget _ _)
    intro current
    split
    · exact .ret fuel _
    · apply Within.bindExcept (listing_cdcInterface cdcPort).silent
      intro endpoint
      split
      · exact .ret fuel _
      · dsimp only
        split <;> exact .ret fuel _

theorem silent_volumeDisappeared (target : EjectTarget) : Silent fuel (volumeDisappeared host fuel target) := by
  apply Within.bindExcept (silent_diskInstancePresent _)
  intro present
  split
  · exact .ret fuel _
  · exact (silent_mountPointPresent _).bindExcept fun _ => .ret fuel _

theorem silent_readReply (handle : ℕ) (deadline : ℚ) (fuel : ℕ) (reply : Bytes) :
    Silent fuel (readReply handle deadline fuel reply) := by
  induction fuel generalizing reply with
  | zero => exact .call 0 _ _ rfl (fun _ => rfl) fun r => nomatch r
  | succ fuel ih =>
    refine fueled_work rfl nofun fun now => ?_
    show Fueled _ fuel _
    split
    · exact .ret fuel _
    · refine fueled_then rfl nofun fun got => ?_
      apply Within.bindExcept (fueled_require _ got)
      intro got
      dsimp only
      split
      · exact .ret fuel _
      · exact ih _

end Silence

section Writing

variable (host : HostText) (loads : Bytes → Except ReleaseExc Contract.Json) (fuel : ℕ) (cdcPort attemptId : String)
  (endpoint : CdcInterface)

/-- The port was listed and its one interface was the endpoint. -/
def Listed (t : NativeTrace) : Prop := Does (cdcInterface host fuel cdcPort).run t (.ret (.ok endpoint))

/-- What a release has done when it writes: the endpoint was listed twice, its path opened, and with the handle still open
it was listed once more. -/
def BeforeWrite (requestId : String) (handle : ℕ) (t : NativeTrace) : Prop :=
  ∃ first second third, Listed host fuel cdcPort endpoint first ∧ Listed host fuel cdcPort endpoint second ∧
    Listed host fuel cdcPort endpoint third ∧ (∀ e ∈ third, e.1 ≠ .closeHandle handle) ∧
    t = first ++ (second ++ (⟨.uuid4, requestId⟩ ::
      ⟨.createFile endpoint.devicePath (genericRead ||| genericWrite) 0, some handle⟩ ::
        (third ++ [⟨.setCommTimeouts handle, true⟩])))

/-- The one write of a release is its request, to the handle of the endpoint. -/
def Written (t : NativeTrace) : Prop :=
  ∃ requestId handle written before after,
    t = before ++ ⟨.writeFile handle (releaseRequest requestId attemptId), written⟩ :: after ∧
      BeforeWrite host fuel cdcPort endpoint requestId handle before ∧ ∀ e ∈ after, e.1.isWrite = false

/-- Nothing is written, or the one request. -/
def Sealed (t : NativeTrace) : Prop := (∀ e ∈ t, e.1.isWrite = false) ∨ Written host fuel cdcPort attemptId endpoint t

/-- A release that is over: it has raised and written nothing, or written its request. -/
def Concluded (r : Except ReleaseExc Unit) (t : NativeTrace) : Prop :=
  (∀ e ∈ t, e.1.isWrite = false) ∧ (∃ e, r = .error e) ∨ Written host fuel cdcPort attemptId endpoint t

variable {host loads fuel cdcPort attemptId endpoint} {t s : NativeTrace}

theorem Listed.silent (h : Listed host fuel cdcPort endpoint t) : ∀ e ∈ t, e.1.isWrite = false :=
  h.all (listing_cdcInterface cdcPort).silent

theorem Listed.open (h : Listed host fuel cdcPort endpoint t) (handle : ℕ) : ∀ e ∈ t, e.1 ≠ .closeHandle handle := by
  intro e he heq
  have hlists := h.all (listing_cdcInterface cdcPort) e he
  rw [heq] at hlists
  cases hlists

theorem Written.append (h : Written host fuel cdcPort attemptId endpoint t) (hs : ∀ e ∈ s, e.1.isWrite = false) :
    Written host fuel cdcPort attemptId endpoint (t ++ s) := by
  obtain ⟨requestId, handle, written, before, after, rfl, hbefore, hafter⟩ := h
  refine ⟨requestId, handle, written, before, after ++ s, by simp, hbefore, ?_⟩
  intro e he
  rcases List.mem_append.mp he with he | he
  · exact hafter e he
  · exact hs e he

theorem BeforeWrite.silent {requestId : String} {handle : ℕ} (h : BeforeWrite host fuel cdcPort endpoint requestId handle t) :
    ∀ e ∈ t, e.1.isWrite = false := by
  obtain ⟨first, second, third, hfirst, hsecond, hthird, -, rfl⟩ := h
  simp only [List.mem_append, List.mem_cons, List.not_mem_nil, or_false]
  rintro e (he | he | rfl | rfl | he | rfl)
  · exact hfirst.silent e he
  · exact hsecond.silent e he
  · rfl
  · rfl
  · exact hthird.silent e he
  · rfl

/-- After the write, what writes nothing changes nothing. -/
theorem always_silent {α : Type} {n : ℕ} {p : NativeM α} (hp : Silent n p) (h : Written host fuel cdcPort attemptId endpoint t) :
    Always (Sealed host fuel cdcPort attemptId endpoint) p.run
      (fun _ t' => Written host fuel cdcPort attemptId endpoint t') t := by
  apply always_imp _ (Within.always hp t)
  · rintro t' ⟨s, rfl, hs⟩
    exact Or.inr (h.append hs)
  · rintro r t' ⟨s, rfl, hs, -⟩
    exact h.append hs

theorem Concluded.append {r : Except ReleaseExc Unit} (h : Concluded host fuel cdcPort attemptId endpoint r t)
    (hs : ∀ e ∈ s, e.1.isWrite = false) : Concluded host fuel cdcPort attemptId endpoint r (t ++ s) := by
  rcases h with ⟨ht, hr⟩ | h
  · refine Or.inl ⟨fun e he => ?_, hr⟩
    rcases List.mem_append.mp he with he | he
    · exact ht e he
    · exact hs e he
  · exact Or.inr (h.append hs)

theorem Concluded.sealed {r : Except ReleaseExc Unit} (h : Concluded host fuel cdcPort attemptId endpoint r t) :
    Sealed host fuel cdcPort attemptId endpoint t :=
  h.imp And.left id

theorem concluded_throw {I : NativeTrace → Prop} {e : ReleaseExc} (ht : ∀ e ∈ t, e.1.isWrite = false) :
    Always I (throw e : NativeM Unit).run (Concluded host fuel cdcPort attemptId endpoint) t :=
  Or.inl ⟨ht, e, rfl⟩

/-- A listing, before anything is written. -/
theorem always_listing {f : CdcInterface → NativeM Unit} (ht : ∀ e ∈ t, e.1.isWrite = false)
    (hf : ∀ current s, Listed host fuel cdcPort current s → (∀ e ∈ t ++ s, e.1.isWrite = false) →
      Always (Sealed host fuel cdcPort attemptId endpoint) (f current).run (Concluded host fuel cdcPort attemptId endpoint)
        (t ++ s)) :
    Always (Sealed host fuel cdcPort attemptId endpoint) (cdcInterface host fuel cdcPort >>= f).run
      (Concluded host fuel cdcPort attemptId endpoint) t := by
  have hsilent : ∀ s : NativeTrace, (∀ e ∈ s, e.1.isWrite = false) → ∀ e ∈ t ++ s, e.1.isWrite = false := by
    intro s hs e he
    rcases List.mem_append.mp he with he | he
    · exact ht e he
    · exact hs e he
  rw [always_raises]
  apply always_imp _ ((listing_cdcInterface cdcPort).silent.always t)
  · rintro t' ⟨s, rfl, hs⟩
    exact Or.inl (hsilent s hs)
  · rintro r t' ⟨s, rfl, hs, hdoes⟩
    cases r with
    | error e => exact Or.inl ⟨hsilent s hs, e, rfl⟩
    | ok current => exact hf current s hdoes (hsilent s hs)

/-- A call that writes nothing, before anything is written. -/
theorem always_native {β : Type} {o : NativeOp} {f : o.Ans → NativeM β} {Q : Except ReleaseExc β → NativeTrace → Prop}
    (ht : ∀ e ∈ t, e.1.isWrite = false) (ho : o.isWrite = false)
    (hf : ∀ r, (∀ e ∈ t ++ [⟨o, r⟩], e.1.isWrite = false) →
      Always (Sealed host fuel cdcPort attemptId endpoint) (f r).run Q (t ++ [⟨o, r⟩])) :
    Always (Sealed host fuel cdcPort attemptId endpoint) (native o >>= f).run Q t := by
  show Always _ (.call o fun r => (f r).run) Q t
  intro r
  have hsilent : ∀ e ∈ t ++ [⟨o, r⟩], e.1.isWrite = false := by
    intro e he
    rcases List.mem_append.mp he with he | he
    · exact ht e he
    · rw [List.mem_singleton.mp he]
      exact ho
  exact ⟨Or.inl hsilent, hf r hsilent⟩

theorem always_openPath {path : String} {access sharing : ℕ} {f : ℕ → NativeM Unit} (ht : ∀ e ∈ t, e.1.isWrite = false)
    (hf : ∀ handle, (∀ e ∈ t ++ [⟨.createFile path access sharing, some handle⟩], e.1.isWrite = false) →
      Always (Sealed host fuel cdcPort attemptId endpoint) (f handle).run (Concluded host fuel cdcPort attemptId endpoint)
        (t ++ [⟨.createFile path access sharing, some handle⟩])) :
    Always (Sealed host fuel cdcPort attemptId endpoint) (openPath path access sharing >>= f).run
      (Concluded host fuel cdcPort attemptId endpoint) t := by
  show Always _ (native (.createFile path access sharing) >>= fun opened => require .hostQuiesceError opened >>= f).run _ t
  refine always_native ht rfl fun opened hsilent => ?_
  cases opened with
  | none => exact concluded_throw hsilent
  | some handle => exact hf handle hsilent

theorem always_withHandle {handle : ℕ} {body : NativeM Unit}
    (hbody : Always (Sealed host fuel cdcPort attemptId endpoint) body.run (Concluded host fuel cdcPort attemptId endpoint) t) :
    Always (Sealed host fuel cdcPort attemptId endpoint) (withFinally (.closeHandle handle) body).run
      (Concluded host fuel cdcPort attemptId endpoint) t := by
  apply (always_bind body.run _ _ t).mpr
  apply always_mono _ hbody
  intro r t' hconcluded left
  have hclosed := hconcluded.append (s := [⟨.closeHandle handle, left⟩]) (by simp [NativeOp.isWrite])
  exact ⟨hclosed.sealed, hclosed⟩

theorem silent_received {requestId : String} {handle length : ℕ} (written : Option ℕ) :
    Silent fuel (do
      let written ← require .releaseIndeterminate written
      if written ≠ length then throw .releaseIndeterminate
      else
        let now ← native .monotonic
        let reply ← readReply handle (now + 5) fuel []
        ExceptT.mk (.ret (judgeReply loads requestId attemptId reply))) := by
  apply Within.bindExcept (fueled_require _ written)
  intro written
  split
  · exact .ret fuel _
  · refine fueled_then rfl nofun fun now => ?_
    exact (silent_readReply _ _ fuel []).bindExcept fun _ => .ret fuel _

theorem always_exchange {first second third : NativeTrace} {requestId : String} {handle : ℕ}
    (hfirst : Listed host fuel cdcPort endpoint first) (hsecond : Listed host fuel cdcPort endpoint second)
    (hthird : Listed host fuel cdcPort endpoint third)
    (ht : t = first ++ (second ++ (⟨.uuid4, requestId⟩ ::
      ⟨.createFile endpoint.devicePath (genericRead ||| genericWrite) 0, some handle⟩ :: third)))
    (hsilent : ∀ e ∈ t, e.1.isWrite = false) :
    Always (Sealed host fuel cdcPort attemptId endpoint) (exchange loads fuel handle requestId attemptId).run
      (Concluded host fuel cdcPort attemptId endpoint) t := by
  apply always_native hsilent rfl
  intro configured hsilent
  cases configured with
  | false => exact concluded_throw hsilent
  | true =>
    show Always _ (.call (NativeOp.writeFile handle (releaseRequest requestId attemptId)) _) _ _
    intro written
    have hwritten : Written host fuel cdcPort attemptId endpoint (t ++ [⟨.setCommTimeouts handle, true⟩] ++
        [⟨.writeFile handle (releaseRequest requestId attemptId), written⟩]) := by
      refine ⟨requestId, handle, written, _, [], rfl, ⟨first, second, third, hfirst, hsecond, hthird, hthird.open handle, ?_⟩, by simp⟩
      rw [ht]
      simp
    exact ⟨Or.inr hwritten, always_imp _ (always_silent (silent_received written) hwritten) (fun _ h => h) fun _ _ h => Or.inr h⟩

/-- The release proper, after a listing of the endpoint. -/
theorem always_releaseCdc (hfirst : Listed host fuel cdcPort endpoint t) :
    Always (Sealed host fuel cdcPort attemptId endpoint) (releaseCdc loads host fuel cdcPort attemptId endpoint).run
      (Concluded host fuel cdcPort attemptId endpoint) t := by
  refine always_listing hfirst.silent fun current second hsecond hsilent => ?_
  split
  case isTrue => exact concluded_throw hsilent
  case isFalse hne =>
    obtain rfl : current = endpoint := not_not.mp hne
    refine always_native hsilent rfl fun requestId hsilent => ?_
    refine always_openPath hsilent fun handle hsilent => ?_
    apply always_withHandle
    refine always_listing hsilent fun again third hthird hsilent => ?_
    split
    case isTrue => exact concluded_throw hsilent
    case isFalse hne =>
      obtain rfl : again = current := not_not.mp hne
      apply always_exchange hfirst hsecond hthird _ hsilent
      simp

variable {self : WindowsHostReleasePort} {binding : CdcBinding} {target : EjectTarget}

/-- A release by a port with a frozen endpoint, for its USB device and its port. -/
theorem always_releaseStorage (hbinding : self.cdcBinding = some binding)
    (hcurrent : binding.usbInstanceId = target.usbPhysicalInstanceId ∧ binding.port = host.upper cdcPort) :
    Always (Sealed host fuel cdcPort attemptId binding.endpoint)
      (releaseStorage host loads fuel self cdcPort attemptId target).run
      (Concluded host fuel cdcPort attemptId binding.endpoint) [] := by
  rw [releaseStorage, hbinding]
  dsimp only
  rw [if_neg (by simp [hcurrent])]
  refine always_listing (by simp) fun current first hfirst hsilent => ?_
  split
  case isTrue => exact concluded_throw hsilent
  case isFalse hne =>
    obtain rfl := not_not.mp hne
    exact always_releaseCdc hfirst

/-- Without a frozen endpoint, or for another device or port, it raises at once. -/
theorem releaseStorage_raises (h : ∀ binding, self.cdcBinding = some binding →
      ¬ (binding.usbInstanceId = target.usbPhysicalInstanceId ∧ binding.port = host.upper cdcPort)) :
    releaseStorage host loads fuel self cdcPort attemptId target = throw .wrongTarget := by
  unfold releaseStorage
  split
  case h_1 => rfl
  case h_2 binding hbinding =>
    apply if_pos
    have := h binding hbinding
    rwa [not_and_or] at this

end Writing

section Freezing

variable (host : HostText) (loads : Bytes → Except ReleaseExc Contract.Json) (fuel : ℕ)

/-- A validation that has succeeded. -/
def Validates (record : CallRecord) (target : EjectTarget) (cdcPort : String) : Prop :=
  record.call = .revalidateTarget target cdcPort ∧ ∃ value, record.result = .ok value

/-- The session's first successful validation has frozen the binding: its last step was the listing that found the endpoint,
on the USB device of its target. -/
def Frozen (calls : List CallRecord) (binding : CdcBinding) : Prop :=
  ∃ before record after target cdcPort, calls = before ++ record :: after ∧
    (∀ earlier ∈ before, ∀ target cdcPort, ¬ Validates earlier target cdcPort) ∧ Validates record target cdcPort ∧
    (∃ first last, record.trace = first ++ last ∧ Listed host fuel cdcPort binding.endpoint last) ∧
    binding.usbInstanceId = target.usbPhysicalInstanceId ∧ binding.port = host.upper cdcPort ∧
    binding.endpoint.physicalUsbInstanceId = target.usbPhysicalInstanceId

variable {host loads fuel} {calls : List CallRecord} {self self' : WindowsHostReleasePort} {t : NativeTrace}

theorem does_withIf {c : Prop} [Decidable c] {α : Type} {exc : ReleaseExc} {p : NativeM α} {a : α}
    (h : Does (if c then throw exc else p : NativeM α).run t (.ret (.ok a))) : ¬ c ∧ Does p.run t (.ret (.ok a)) := by
  split at h
  case isTrue => cases (does_ret.mp h).2
  case isFalse hc => exact ⟨hc, h⟩

/-- A validation ends with the listing of its endpoint, and a frozen endpoint stays. -/
theorem does_revalidateTarget {target : EjectTarget} {cdcPort : String}
    (h : Does (revalidateTarget host fuel self target cdcPort).run t (.ret (.ok self'))) :
    ∃ binding first last, self'.cdcBinding = some binding ∧ t = first ++ last ∧
      Listed host fuel cdcPort binding.endpoint last ∧ binding.usbInstanceId = target.usbPhysicalInstanceId ∧
      binding.port = host.upper cdcPort ∧ binding.endpoint.physicalUsbInstanceId = target.usbPhysicalInstanceId ∧
      (self.cdcBinding = none ∨ self = self') := by
  obtain ⟨currentId, t₁, t₂, rfl, -, hrest⟩ := does_raises.mp h
  obtain ⟨-, hrest⟩ := does_withIf hrest
  obtain ⟨current, t₃, t₄, rfl, -, hrest⟩ := does_raises.mp hrest
  obtain ⟨-, hrest⟩ := does_withIf hrest
  obtain ⟨endpoint, t₅, t₆, rfl, hlisted, hrest⟩ := does_raises.mp hrest
  obtain ⟨husb, hrest⟩ := does_withIf hrest
  obtain ⟨hsame, hrest⟩ := does_withIf hrest
  obtain ⟨rfl, heq⟩ := does_ret.mp hrest
  cases heq
  refine ⟨_, t₁ ++ t₃, t₅, rfl, by simp, hlisted, rfl, rfl, not_not.mp husb, ?_⟩
  obtain ⟨frozen⟩ := self
  cases frozen with
  | none => exact Or.inl rfl
  | some frozen =>
    apply Or.inr
    simpa using hsame

/-- No call but a validation changes the port. -/
theorem body_keeps {c : PortCall} (hc : ∀ target cdcPort, c ≠ .revalidateTarget target cdcPort) {value : PortValue}
    (h : Does (c.body host loads fuel self).run t (.ret (.ok (value, self')))) : self' = self := by
  cases c with
  | revalidateTarget target cdcPort => exact absurd rfl (hc target cdcPort)
  | _ =>
    obtain ⟨_, _, _, -, -, hrest⟩ := does_raises.mp h
    cases (does_ret.mp hrest).2
    rfl

/-- The port of a session holds the binding that its first successful validation has frozen. -/
theorem Session.frozen (h : Session host loads fuel calls self) :
    (self.cdcBinding = none ∧ ∀ record ∈ calls, ∀ target cdcPort, ¬ Validates record target cdcPort) ∨
      ∃ binding, self.cdcBinding = some binding ∧ Frozen host fuel calls binding := by
  induction h with
  | init => exact Or.inl ⟨rfl, by simp⟩
  | @call calls self h c t r hdoes ih =>
    have hkept : ∀ binding record, Frozen host fuel calls binding → Frozen host fuel (calls ++ [record]) binding := by
      rintro binding record ⟨before, first, after, target, cdcPort, rfl, hfrozen⟩
      exact ⟨before, first, after ++ [record], target, cdcPort, by simp, hfrozen⟩
    by_cases hvalidates : ∃ target cdcPort, Validates ⟨c, t, (afterCall self r).1⟩ target cdcPort
    · obtain ⟨target, cdcPort, hcall, value, hresult⟩ := hvalidates
      obtain rfl : c = .revalidateTarget target cdcPort := hcall
      cases r with
      | error e => cases hresult
      | ok r =>
        obtain ⟨value', self'⟩ := r
        have hreturned : Does (revalidateTarget host fuel self target cdcPort).run t (.ret (.ok self')) := by
          obtain ⟨found, t₁, t₂, rfl, hfound, hrest⟩ := does_raises.mp hdoes
          obtain ⟨rfl, heq⟩ := does_ret.mp hrest
          cases heq
          rwa [List.append_nil]
        obtain ⟨binding, first, last, hbinding, htrace, hlisted, husb, hport, hphysical, hself⟩ :=
          does_revalidateTarget hreturned
        apply Or.inr
        rcases ih with ⟨-, hnone⟩ | ⟨frozen, hfrozen, hcalls⟩
        · exact ⟨binding, hbinding, calls, _, [], target, cdcPort, rfl, hnone, ⟨rfl, value', rfl⟩, ⟨first, last, htrace, hlisted⟩,
            husb, hport, hphysical⟩
        · rcases hself with hself | rfl
          · rw [hfrozen] at hself
            cases hself
          · exact ⟨frozen, hfrozen, hkept frozen _ hcalls⟩
    · have hsame : (afterCall self r).2 = self := by
        cases r with
        | error e => rfl
        | ok r =>
          obtain ⟨value, self'⟩ := r
          apply body_keeps _ hdoes
          rintro target cdcPort rfl
          exact hvalidates ⟨target, cdcPort, rfl, value, rfl⟩
      rw [hsame]
      rcases ih with ⟨hself, hnone⟩ | ⟨binding, hbinding, hcalls⟩
      · refine Or.inl ⟨hself, fun record hrecord target cdcPort hvalid => ?_⟩
        rcases List.mem_append.mp hrecord with hrecord | hrecord
        · exact hnone record hrecord target cdcPort hvalid
        · rw [List.mem_singleton.mp hrecord] at hvalid
          exact hvalidates ⟨target, cdcPort, hvalid⟩
      · exact Or.inr ⟨binding, hbinding, hkept binding _ hcalls⟩

end Freezing

section Session

variable {host : HostText} {loads : Bytes → Except ReleaseExc Contract.Json} {fuel : ℕ} {calls : List CallRecord}
  {self : WindowsHostReleasePort} {t : NativeTrace}

/-- Only a release writes. -/
theorem silent_body {c : PortCall} (hc : ∀ cdcPort attemptId target, c ≠ .releaseStorage cdcPort attemptId target) :
    Silent fuel (c.body host loads fuel self) := by
  cases c with
  | releaseStorage cdcPort attemptId target => exact absurd rfl (hc _ _ _)
  | resolveTarget mountRoot id => exact (silent_resolveTarget mountRoot id).bindExcept fun _ => .ret fuel _
  | revalidateTarget target cdcPort => exact (silent_revalidateTarget self target cdcPort).bindExcept fun _ => .ret fuel _
  | volumeAvailable target => exact fueled_then rfl nofun fun _ => .ret fuel _
  | enter target => exact (silent_lockAndDismount _).bindExcept fun _ => .ret fuel _
  | leave handle => exact fueled_then rfl nofun fun _ => .ret fuel _
  | volumeDisappeared target => exact (silent_volumeDisappeared target).bindExcept fun _ => .ret fuel _

abbrev Bounded {α : Type} (n : ℕ) (p : NativeM α) : Prop := Fueled (fun _ => True) n p.run

theorem Silent.bounded {α : Type} {n : ℕ} {p : NativeM α} (h : Silent n p) : Bounded n p := h.any fun _ _ => trivial

theorem bounded_exchange (handle : ℕ) (requestId attemptId : String) :
    Bounded fuel (exchange loads fuel handle requestId attemptId) := by
  refine fueled_then trivial nofun fun configured => ?_
  split
  · exact .ret fuel _
  · exact fueled_then trivial nofun fun written => (silent_received written).bounded

theorem bounded_releaseCdc (cdcPort attemptId : String) (endpoint : CdcInterface) :
    Bounded fuel (releaseCdc loads host fuel cdcPort attemptId endpoint) := by
  apply Within.bindExcept (listing_cdcInterface cdcPort).silent.bounded
  intro current
  split
  · exact .ret fuel _
  · refine fueled_then trivial nofun fun requestId => ?_
    apply Within.bindExcept (silent_openPath _ _ _).bounded
    intro handle
    refine fueled_withFinally trivial nofun ?_
    apply Within.bindExcept (listing_cdcInterface cdcPort).silent.bounded
    intro again
    split
    · exact .ret fuel _
    · exact bounded_exchange handle requestId attemptId

theorem bounded_releaseStorage (cdcPort attemptId : String) (target : EjectTarget) :
    Bounded fuel (releaseStorage host loads fuel self cdcPort attemptId target) := by
  unfold releaseStorage
  split
  · exact .ret fuel _
  · split
    · exact .ret fuel _
    · apply Within.bindExcept (listing_cdcInterface cdcPort).silent.bounded
      intro current
      split
      · exact .ret fuel _
      · exact bounded_releaseCdc cdcPort attemptId _

theorem bounded_body (c : PortCall) : Bounded fuel (c.body host loads fuel self) := by
  by_cases hc : ∃ cdcPort attemptId target, c = .releaseStorage cdcPort attemptId target
  · obtain ⟨cdcPort, attemptId, target, rfl⟩ := hc
    exact (bounded_releaseStorage cdcPort attemptId target).bindExcept fun _ => .ret fuel _
  · apply (silent_body _).bounded
    rintro cdcPort attemptId target rfl
    exact hc ⟨cdcPort, attemptId, target, rfl⟩

/-- The one write of a trace is where it is found. -/
theorem write_unique {before before' after after' : NativeTrace} {e e' : Σ o : NativeOp, o.Ans} (he : e.1.isWrite = true)
    (hbefore : ∀ x ∈ before', x.1.isWrite = false) (hafter : ∀ x ∈ after', x.1.isWrite = false)
    (h : before ++ e :: after = before' ++ e' :: after') : before = before' ∧ e = e' ∧ after = after' := by
  induction before' generalizing before with
  | nil =>
    cases before with
    | nil =>
      obtain ⟨rfl, rfl⟩ := List.cons.inj h
      exact ⟨rfl, rfl, rfl⟩
    | cons x before =>
      obtain ⟨-, rfl⟩ := List.cons.inj h
      have := hafter e (by simp)
      rw [he] at this
      cases this
  | cons y before' ih =>
    cases before with
    | nil =>
      obtain ⟨rfl, -⟩ := List.cons.inj h
      have := hbefore e (by simp)
      rw [he] at this
      cases this
    | cons x before =>
      obtain ⟨rfl, htail⟩ := List.cons.inj h
      obtain ⟨rfl, hrest⟩ := ih (fun x hx => hbefore x (List.mem_cons_of_mem _ hx)) htail
      exact ⟨rfl, hrest⟩

/-- A release of a session has written nothing, or its one request to the endpoint that the session has frozen. -/
theorem Session.release (hsession : Session host loads fuel calls self) {cdcPort attemptId : String} {target : EjectTarget}
    {q : Prog NativeOp NativeOp.Ans (Except ReleaseExc (PortValue × WindowsHostReleasePort))}
    (hd : Does (PortCall.body host loads fuel self (.releaseStorage cdcPort attemptId target)).run t q) :
    ((∀ e ∈ t, e.1.isWrite = false) ∧ ∀ value, q ≠ .ret (.ok value)) ∨
      ∃ binding, Frozen host fuel calls binding ∧ binding.usbInstanceId = target.usbPhysicalInstanceId ∧
        binding.port = host.upper cdcPort ∧ Sealed host fuel cdcPort attemptId binding.endpoint t ∧
          ∀ value, q = .ret (.ok value) → Written host fuel cdcPort attemptId binding.endpoint t := by
  by_cases hready : ∃ binding, self.cdcBinding = some binding ∧ binding.usbInstanceId = target.usbPhysicalInstanceId ∧
      binding.port = host.upper cdcPort
  · obtain ⟨binding, hbinding, hcurrent⟩ := hready
    rcases hsession.frozen with ⟨hnone, -⟩ | ⟨frozen, hfrozen, hcalls⟩
    · rw [hnone] at hbinding
      cases hbinding
    · obtain rfl : binding = frozen := by
        rw [hfrozen] at hbinding
        exact (Option.some.inj hbinding).symm
      have hrun : Always (Sealed host fuel cdcPort attemptId binding.endpoint)
          (PortCall.body host loads fuel self (.releaseStorage cdcPort attemptId target)).run
          (fun r t => ∀ value, r = .ok value → Written host fuel cdcPort attemptId binding.endpoint t) [] := by
        apply always_raises.mpr
        apply always_mono _ (always_releaseStorage hbinding hcurrent)
        intro r t' hconcluded
        cases r with
        | error e => exact nofun
        | ok _ =>
          intro _ _
          rcases hconcluded with ⟨-, e, he⟩ | hwritten
          · cases he
          · exact hwritten
      obtain ⟨hsealed, hreturned⟩ := hd.sat hrun (Or.inl (by simp))
      exact Or.inr ⟨binding, hcalls, hcurrent.1, hcurrent.2, hsealed, fun value hq => hreturned _ hq value rfl⟩
  · have hraises : releaseStorage host loads fuel self cdcPort attemptId target = throw .wrongTarget := by
      apply releaseStorage_raises
      intro binding hbinding hcurrent
      exact hready ⟨binding, hbinding, hcurrent⟩
    have hbody : (PortCall.body host loads fuel self (.releaseStorage cdcPort attemptId target)).run =
        .ret (.error .wrongTarget) := by
      show (releaseStorage host loads fuel self cdcPort attemptId target >>= _ : NativeM _).run = _
      rw [hraises]
      rfl
    rw [hbody] at hd
    cases hd
    exact Or.inl ⟨by simp, nofun⟩

/-- In every session, whatever the host answers to any native call, a byte is written only by a release, and what is written
is its one request, to a handle opened on the path of the endpoint that the session's first successful validation has frozen,
on the USB device of the target; the port was listed before the handle was opened and again while it was open, each time
with this very endpoint as its one interface. A release that has not written does not return, and a run stops short only
after as much work as there was fuel. -/
theorem releaseStorage_frozenEndpoint (hsession : Session host loads fuel calls self) (c : PortCall) (t : NativeTrace)
    (q : Prog NativeOp NativeOp.Ans (Except ReleaseExc (PortValue × WindowsHostReleasePort)))
    (hd : Does (c.body host loads fuel self).run t q) :
    (∀ before handle bytes written after, t = before ++ ⟨.writeFile handle bytes, written⟩ :: after →
      ∃ cdcPort attemptId target binding requestId, c = .releaseStorage cdcPort attemptId target ∧
        Frozen host fuel calls binding ∧ binding.usbInstanceId = target.usbPhysicalInstanceId ∧
        binding.endpoint.physicalUsbInstanceId = target.usbPhysicalInstanceId ∧ binding.port = host.upper cdcPort ∧
        bytes = releaseRequest requestId attemptId ∧ BeforeWrite host fuel cdcPort binding.endpoint requestId handle before ∧
        ∀ e ∈ after, e.1.isWrite = false) ∧
    (∀ cdcPort attemptId target value, c = .releaseStorage cdcPort attemptId target → q = .ret (.ok value) →
      ∃ e ∈ t, e.1.isWrite = true) ∧
    ∀ k, q = .call .halt k → fuel ≤ (t.map fun e => work e.1 e.2).sum := by
  refine ⟨fun before handle bytes written after ht => ?_, fun cdcPort attemptId target value hc hq => ?_, fun k hq => ?_⟩
  · by_cases hc : ∃ cdcPort attemptId target, c = .releaseStorage cdcPort attemptId target
    · obtain ⟨cdcPort, attemptId, target, rfl⟩ := hc
      have hwrite : (⟨.writeFile handle bytes, written⟩ : Σ o : NativeOp, o.Ans) ∈ t := by simp [ht]
      rcases hsession.release hd with ⟨hsilent, -⟩ | ⟨binding, hfrozen, husb, hport, hsealed, -⟩
      · cases hsilent _ hwrite
      · rcases hsealed with hsilent | ⟨requestId, handle', written', before', after', ht', hbefore, hafter⟩
        · cases hsilent _ hwrite
        · obtain ⟨rfl, heq, rfl⟩ := write_unique rfl hbefore.silent hafter (ht.symm.trans ht')
          cases heq
          have hphysical : binding.endpoint.physicalUsbInstanceId = target.usbPhysicalInstanceId := by
            obtain ⟨_, _, _, _, _, _, _, _, _, hfirst, _, hphysical⟩ := hfrozen
            rw [hphysical, ← hfirst, husb]
          exact ⟨cdcPort, attemptId, target, binding, requestId, rfl, hfrozen, husb, hphysical, hport, rfl, hbefore, hafter⟩
    · have hsilent := hd.all (silent_body fun cdcPort attemptId target h => hc ⟨cdcPort, attemptId, target, h⟩)
      have hwrite : (⟨.writeFile handle bytes, written⟩ : Σ o : NativeOp, o.Ans) ∈ t := by simp [ht]
      cases hsilent _ hwrite
  · subst hc
    rcases hsession.release hd with ⟨-, hraises⟩ | ⟨binding, -, -, -, -, hwritten⟩
    · exact absurd hq (hraises value)
    · obtain ⟨requestId, handle, written, before, after, ht, -⟩ := hwritten value hq
      exact ⟨_, by rw [ht]; exact List.mem_append_right _ (.head _), rfl⟩
  · subst hq
    exact hd.stopped (bounded_body c) rfl

end Session

section Sample

def sampleText : HostText :=
  ⟨fun s => String.ofList (s.toList.map Char.toUpper), fun s => String.ofList (s.toList.map Char.toLower)⟩

def sampleVolume : String := "\\\\?\\Volume\x7b11111111-1111-4111-8111-111111111111\x7d\\"

/-- The data of every control call: one extent, on the disk 1. -/
def sampleData : Bytes := [1, 0, 0, 0, 1, 0, 0, 0, 1, 0, 0, 0] ++ List.replicate 20 0

/-- A host with one USB device, which is the one disk and the one COM port. -/
def sampleHost : (o : NativeOp) → Option o.Ans
  | .inspectDevice _ => some (.ok "11111111-1111-4111-8111-111111111111")
  | .getVolumePathName mountRoot => some (some mountRoot)
  | .getVolumeNameForVolumeMountPoint _ => some (some sampleVolume)
  | .getVolumeInformation _ | .queryDosDevice _ | .setCommTimeouts _ => some true
  | .createFile _ _ _ => some (some 7)
  | .deviceIoControl _ _ outputSize => some (some (sampleData.take outputSize))
  | .closeHandle _ | .destroyDeviceInfoList _ | .closeKey _ => some ()
  | .getLastError => some errorNoMoreItems
  | .getClassDevs _ => some (some 1)
  | .enumDeviceInterfaces _ _ index => some (if index = 0 then some 5 else none)
  | .getDeviceInterfaceDetail _ _ => some (some ("\\\\?\\usb#vid_303a&pid_4001", 3))
  | .getDeviceId _ => some (some "USB\\VID_303A&PID_4001\\A1")
  | .getParent _ => some none
  | .getCapabilities _ => some (some devcapRemovable)
  | .openKey _ => some (some 2)
  | .queryValue _ _ => some (some (.string "COM3"))
  | .writeFile _ bytes => some (some bytes.length)
  | .readFile _ => some (some [0x0a])
  | .monotonic => some (0 : ℚ)
  | .uuid4 => some "22222222-2222-4222-8222-222222222222"
  | .halt => none

def sampleTarget : EjectTarget :=
  ⟨"11111111-1111-4111-8111-111111111111", "E:\\", sampleVolume, 1, "USB\\VID_303A&PID_4001\\A1", "USB\\VID_303A&PID_4001\\A1",
    "USB\\VID_303A&PID_4001\\A1"⟩

def sampleEndpoint : CdcInterface :=
  ⟨"\\\\?\\usb#vid_303a&pid_4001", "USB\\VID_303A&PID_4001\\A1", "USB\\VID_303A&PID_4001\\A1"⟩

/-- No reply is a document. -/
def sampleLoads : Bytes → Except ReleaseExc Contract.Json := fun _ => .error .valueError

def samplePort : WindowsHostReleasePort := ⟨some ⟨"USB\\VID_303A&PID_4001\\A1", "COM3", sampleEndpoint⟩⟩

def sampleValidation : PortCall := .revalidateTarget sampleTarget "COM3"

def sampleRelease : PortCall := .releaseStorage "com3" "33333333-3333-4333-8333-333333333333" sampleTarget

/-- A session in which the endpoint is frozen, and a release that writes to it. -/
theorem releaseStorage_sample : ∃ calls t r, Session sampleText sampleLoads 9 calls samplePort ∧
    Does (sampleRelease.body sampleText sampleLoads 9 samplePort).run t (.ret r) ∧
    ∃ before handle requestId written after binding,
      t = before ++ ⟨.writeFile handle (releaseRequest requestId "33333333-3333-4333-8333-333333333333"), written⟩ :: after ∧
        Frozen sampleText 9 calls binding ∧ BeforeWrite sampleText 9 "com3" binding.endpoint requestId handle before := by
  have hvalidated : (record sampleHost (sampleValidation.body sampleText sampleLoads 9 .init).run).2 =
      some (.ok (.none, samplePort)) := by decide +kernel
  have hsession := Session.init.call sampleValidation (does_record hvalidated)
  have hreleased : (record sampleHost (sampleRelease.body sampleText sampleLoads 9 samplePort).run).2 =
      some (.error .releaseIndeterminate) := by decide +kernel
  have hdoes := does_record hreleased
  have hwrites : (record sampleHost (sampleRelease.body sampleText sampleLoads 9 samplePort).run).1.any (·.1.isWrite) = true := by
    decide +kernel
  obtain ⟨⟨o, written⟩, hmem, hwrite⟩ := List.any_eq_true.mp hwrites
  obtain ⟨before, after, ht⟩ := List.append_of_mem hmem
  cases o with
  | writeFile handle bytes =>
    obtain ⟨cdcPort, attemptId, target, binding, requestId, hcall, hfrozen, -, -, -, rfl, hbefore, -⟩ :=
      (releaseStorage_frozenEndpoint hsession sampleRelease _ _ hdoes).1 before handle bytes written after ht
    cases hcall
    exact ⟨_, _, _, hsession, hdoes, before, handle, requestId, written, after, binding, ht, hfrozen, hbefore⟩
  | _ => cases hwrite

end Sample

end M5DayLog.Windows
