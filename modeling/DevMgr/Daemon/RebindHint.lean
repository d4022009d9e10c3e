import DevMgr.Daemon.Enabling
import DevMgr.Daemon.EnforcementTurns
import DevMgr.Linux.BenchPort

/-!
# The driver a device is rebound to

A disabling through unbind stores the driver it took away, and the enabling of the
device hands it back to the controller. A disabling of a device that is unbound
stores no driver, in the place of what its key had before.
-/

open DevMgr.Core

namespace DevMgr.Daemon
open Bytes Linux Program

/-- The entry is found for the device, or has one of the keys. -/
def Concerns (device : Device) (keys : List DeviceKey) (e : DisabledDeviceEntry) : Prop :=
  FoundFor e device ∨ e.key ∈ keys

instance (device : Device) (keys : List DeviceKey) (e : DisabledDeviceEntry) :
    Decidable (Concerns device keys e) := inferInstanceAs (Decidable (_ ∨ _))

theorem upsert_cons (entry e : DisabledDeviceEntry) (es : List DisabledDeviceEntry) :
    StateStore.upsert entry (e :: es) =
      if e.key = entry.key then entry :: es else e :: StateStore.upsert entry es := by
  rw [StateStore.upsert, StateStore.update]
  split_ifs with hkey
  · rfl
  · rw [StateStore.upsert]
    cases StateStore.update entry.key (fun _ => entry) es <;> rfl

theorem find_upsert {C : DisabledDeviceEntry → Prop} [DecidablePred C] {entry : DisabledDeviceEntry}
    (hC : ∀ e, e.key = entry.key → C e) (entries : List DisabledDeviceEntry) :
    (StateStore.upsert entry entries).find? (C ·) =
      some ((entries.find? (C ·)).elim entry fun e => if e.key = entry.key then entry else e) := by
  have hentry : C entry := hC entry rfl
  induction entries with
  | nil => simp [StateStore.upsert, StateStore.update, hentry]
  | cons e es ih =>
    rw [upsert_cons]
    by_cases hkey : e.key = entry.key
    · simp [hkey, hentry, hC e hkey]
    · by_cases he : C e
      · simp [hkey, he]
      · simp only [if_neg hkey, List.find?_cons, he, decide_false, ih]

/-- What became of the first entry that concerns a device, in disablings of it that recorded the
keys. -/
structure Remembers (canonical driver : Str) (keys : List DeviceKey)
    (found found' : Option DisabledDeviceEntry) : Prop where
  key : found'.map DisabledDeviceEntry.key = (found.map DisabledDeviceEntry.key).or keys.head?
  unrecorded : ∀ e, found' = some e → e.key ∉ keys → found = some e
  recorded : ∀ e, found' = some e → e.key ∈ keys → e.lastSysfsPath = canonical ∧
    e.lastDriver = if e.key ∈ keys.tail then [] else driver

section Remembers
variable {canonical driver : Str} {keys : List DeviceKey}
  {found found' : Option DisabledDeviceEntry} {entry : DisabledDeviceEntry}

theorem Remembers.start : Remembers canonical driver [] found found where
  key := by simp
  unrecorded _ h _ := h
  recorded _ _ h := absurd h (by simp)

theorem Remembers.again (h : Remembers canonical driver keys found found')
    (hpath : entry.lastSysfsPath = canonical)
    (hdriver : entry.lastDriver = if keys = [] then driver else []) :
    Remembers canonical driver (keys ++ [entry.key]) found
      (some (found'.elim entry fun e => if e.key = entry.key then entry else e)) := by
  have hentry : entry.lastSysfsPath = canonical ∧ entry.lastDriver =
      if entry.key ∈ (keys ++ [entry.key]).tail then [] else driver := by
    refine ⟨hpath, hdriver.trans ?_⟩
    cases keys <;> simp
  cases found' with
  | none =>
    have hkey := h.key
    simp only [Option.map_none, Option.elim_none] at hkey ⊢
    obtain ⟨hfound, hkeys⟩ := Option.or_eq_none_iff.mp hkey.symm
    obtain rfl := List.head?_eq_none_iff.mp hkeys
    refine ⟨by simp [hfound], fun e he hnot => ?_, fun e he _ => Option.some.inj he ▸ hentry⟩
    exact absurd (Option.some.inj he ▸ List.mem_singleton_self _) hnot
  | some e₁ =>
    have hkey := h.key
    simp only [Option.map_some, Option.elim_some] at hkey ⊢
    have hhead : (found.map DisabledDeviceEntry.key).or (keys ++ [entry.key]).head? =
        some e₁.key := by
      rw [hkey]
      cases found with
      | some e₀ => rfl
      | none =>
        cases keys with
        | nil => exact absurd hkey (by simp)
        | cons k rest => rfl
    by_cases hsame : e₁.key = entry.key
    · rw [if_pos hsame]
      refine ⟨by
        rw [hhead, hsame, Option.map_some], fun e he hnot => ?_, fun e he _ =>
          Option.some.inj he ▸ hentry⟩
      exact absurd (Option.some.inj he ▸ by simp) hnot
    · rw [if_neg hsame]
      refine ⟨by rw [hhead, Option.map_some], fun e he hnot => ?_, fun e he hmem => ?_⟩
      · obtain rfl := Option.some.inj he
        exact h.unrecorded _ rfl fun hmem => hnot (List.mem_append_left _ hmem)
      · obtain rfl := Option.some.inj he
        have hold : e₁.key ∈ keys := (List.mem_append.mp hmem).resolve_right fun hlast =>
          hsame (List.mem_singleton.mp hlast)
        have htail : e₁.key ∈ (keys ++ [entry.key]).tail ↔ e₁.key ∈ keys.tail := by
          cases keys <;> simp [hsame]
        rw [if_congr htail rfl rfl]
        exact h.recorded _ rfl hold

end Remembers

/-- The entry found for the device still holds the driver after disablings that recorded a first key
and then others. -/
def HintKept (found : Option DisabledDeviceEntry) (first : DeviceKey) (later : List DeviceKey)
    (driver : Str) : Prop :=
  match found with
  | none => first ∉ later ∨ driver = []
  | some e => if e.key ∈ later then driver = [] else e.key = first ∨ e.lastDriver = driver

instance (found : Option DisabledDeviceEntry) (first : DeviceKey) (later : List DeviceKey)
    (driver : Str) :
    Decidable (HintKept found first later driver) := by
  unfold HintKept
  cases found <;> infer_instance

theorem Remembers.hint {canonical driver : Str} {first : DeviceKey} {later : List DeviceKey}
    {found found' : Option DisabledDeviceEntry}
    (h : Remembers canonical driver (first :: later) found found') :
    ∃ e, found' = some e ∧ (e.key ∈ first :: later → e.lastSysfsPath = canonical) ∧
      (e.key ∉ first :: later → found = some e) ∧
      (e.lastDriver = driver ↔ HintKept found first later driver) := by
  cases found' with
  | none =>
    have hkey := h.key
    cases found <;> exact absurd hkey (by simp)
  | some e =>
    refine ⟨e, rfl, fun hmem => (h.recorded e rfl hmem).1, h.unrecorded e rfl, ?_⟩
    have hkey := h.key
    unfold HintKept
    cases found with
    | none =>
      obtain rfl : e.key = first := by simpa using hkey
      rw [(h.recorded e rfl (List.mem_cons_self ..)).2, List.tail_cons]
      by_cases hlater : e.key ∈ later <;> simp [hlater, eq_comm]
    | some e₀ =>
      have hsame : e.key = e₀.key := by simpa using hkey
      dsimp only
      rw [← hsame]
      by_cases hmem : e.key ∈ first :: later
      · rw [(h.recorded e rfl hmem).2, List.tail_cons]
        by_cases hlater : e.key ∈ later
        · simp [hlater, eq_comm]
        · simp [(List.mem_cons.mp hmem).resolve_right hlater]
      · obtain rfl := Option.some.inj (h.unrecorded e rfl hmem)
        rw [List.mem_cons, not_or] at hmem
        simp [hmem.1, hmem.2]

section Verb
variable {K W : Type} {J : Json.Codec} {F : Sysfs K} {P : Platform K} {sysfsRoot : Str}
  {Q : Platform W} {view : W → Attributed K} {t : Thread} {s : State W} {canonical : Str}

def recordedKey (P : Platform K) (k : K) (canonical : Str) : DeviceKey :=
  match ((P.enumerate k).toOption.getD []).find? fun d => d.sysfsPath = canonical with
  | some device => makePresentKey device ((P.enumerate k).toOption.getD [])
  | none => makeDeviceKey (P.identityAt k canonical)

structure Undisturbed (view : W → Attributed K) (s s' : State W) : Prop where
  entries : s'.entries = s.entries
  view : view s'.world = view s.world

def Op.NoWrite (o : Op) : Prop := ∀ path enabled hint, o ≠ .setEnabled none path enabled hint

theorem noWrite_of_reads {o : Op} (h : o.Reads) : o.NoWrite := by
  rintro path enabled hint rfl
  rcases h with h | h | ⟨_, h⟩ | ⟨_, _, h⟩
  · exact h.elim
  all_goals exact absurd h (by simp)

theorem identityAt_view (hbehind : Behind F P sysfsRoot Q view) (w : W) :
    Q.identityAt w canonical = P.identityAt (view w).kernel canonical := by
  unfold Platform.identityAt Platform.busAt Platform.attrOr Platform.attr
  simp only [hbehind.weaklyCanonical, hbehind.firstLine]

theorem does_snapshotBefore {verb : String} {subject : Str} {issue : Op → Prop}
    (hbehind : Behind F P sysfsRoot Q view) (hissue : ∀ o : Op, o.NoWrite → issue o) {s₀ : State W}
    (hs : Undisturbed view s₀ s) :
    Does (respond J Q t) (snapshotBefore verb subject).run s issue fun _ s' =>
      Undisturbed view s₀ s' := by
  have hissued : Only (fun o : Op => o.Sees ∨ ∃ payload trigger reason now,
      o = .putSnapshot payload trigger reason now) (snapshotBefore verb subject).run :=
    only_snapshotBefore (fun _ => .inl) fun payload now => .inr ⟨payload, _, _, now, rfl⟩
  refine does_only (hissued.mono ?_) (leaves_only hissued ?_ hs)
  · rintro o (ho | ⟨payload, trigger, reason, now, rfl⟩)
    · exact hissue o (noWrite_of_reads (.inl ho))
    · exact hissue _ nofun
  · rintro o s (ho | ⟨payload, trigger, reason, now, rfl⟩) h
    · rw [respond_reads J Q o s (.inl ho)]
      exact h
    · exact ⟨h.entries, (hbehind.putSnapshot ..).trans h.view⟩

theorem does_setDeviceEnabled {caller path : Str} {enabled : Bool} {issue : Op → Prop}
    {R : List DisabledDeviceEntry → Attributed K → Prop} (hbehind : Behind F P sysfsRoot Q view)
    (hcanonical : P.weaklyCanonical (view s.world).kernel path = some canonical)
    (hissue : ∀ o : Op, o.NoWrite → issue o)
    (hact : ∀ s', Undisturbed view s s' →
      P.isDirectory (view s.world).kernel canonical = true →
      Does (respond J Q t) (if enabled then applyEnable canonical
        else applyDisable canonical).run s' issue
        fun r s'' => r = .ok () → R s''.entries (view s''.world)) :
    Does (respond J Q t) (setDeviceEnabled sysfsRoot caller path enabled).run s issue
      fun r s' => r = .ok () → R s'.entries (view s'.world) := by
  have hreads : ∀ {α : Type} {p : Prog daemon α}, Only Op.Reads p →
      Does (respond J Q t) p s issue fun _ s' => s' = s := fun hp =>
    does_only (hp.mono fun o ho => hissue o (noWrite_of_reads ho)) (leaves_reads hp)
  have hvalidate :
      ∀ (result : Result Unit) {α : Type} {f : Unit → Verb α} {R' : Result α →
        State W → Prop},
      (∀ error, R' (.error error) s) → Does (respond J Q t) (f ()).run s issue R' →
      Does (respond J Q t) (validate result >>= f).run s issue R' := by
    intro result α f R' herror hf
    refine does_step (does_pure ?_)
    cases result with
    | ok u => exact hf
    | error error => exact herror error
  refine hvalidate _ (fun _ => nofun) (hvalidate _ (fun _ => nofun) ?_)
  refine does_step (does_only ((sees_canonicalContained path).mono fun o ho =>
    hissue o (noWrite_of_reads (.inl ho))) ?_)
  have hcanonical' : Q.weaklyCanonical s.world path = some canonical :=
    (hbehind.weaklyCanonical ..).trans hcanonical
  refine (leaves_canonicalContained hcanonical').mono fun r s' hr => ?_
  cases r with
  | error error => exact nofun
  | ok c =>
    obtain ⟨rfl, rfl, hpresent⟩ := hr c rfl
    have hlocked : Does (respond J Q t) (do
        authorize caller kActionSetDeviceEnabled
        actLocked "SetDeviceEnabled" c (if enabled then applyEnable c else applyDisable c) :
        Verb Unit).run
        s' issue fun r s'' => r = .ok () → R s''.entries (view s''.world) := by
      refine does_step ((hreads (only_authorize (.inr (.inr (.inr ⟨_, _, rfl⟩))))).mono ?_)
      rintro (error | u) s'' rfl
      · exact nofun
      refine does_bind (does_call (hissue _ nofun) (does_ending (hissue _ nofun) (does_step ?_)))
      have hheld : Undisturbed view s'' (respond J Q t .lock s'').2 := ⟨rfl, rfl⟩
      refine (does_snapshotBefore hbehind hissue hheld).mono fun r s₁ hs₁ => ?_
      cases r with
      | error error => exact nofun
      | ok u => exact hact s₁ hs₁ ((hbehind.isDirectory ..).symm.trans hpresent)
    cases enabled with
    | true => exact hlocked
    | false =>
      refine does_step ((hreads (only_guardDisable (.inr (.inl rfl)))).mono ?_)
      rintro (error | u) s'' rfl
      · exact nofun
      · exact hlocked

theorem leaves_enumerated (hbehind : Behind F P sysfsRoot Q view) :
    Leaves (respond J Q t) enumerated s fun all s' =>
      all = (P.enumerate (view s.world).kernel).toOption.getD [] ∧ s' = s := by
  refine leaves_present.mono fun all s' h => ⟨h.1.trans ?_, h.2⟩
  rw [present, hbehind.enumerate]

theorem save_view (hbehind : Behind F P sysfsRoot Q view) (entries : List DisabledDeviceEntry) :
    view (s.save J Q entries).2.world = view s.world := by
  unfold State.save
  dsimp only
  split_ifs
  · exact hbehind.writeState ..
  · rfl

theorem leaves_applyDisable (hbehind : Behind F P sysfsRoot Q view) :
    Leaves (respond J Q t) (applyDisable canonical).run s fun r s' => r = .ok () →
      ∃ (applied : Option Str) (entry : DisabledDeviceEntry),
        SysfsDeviceController.setEnabled F P sysfsRoot (view s.world) canonical false [] =
          (.ok applied, view s'.world) ∧
        s'.entries = StateStore.upsert entry s.entries ∧
        entry.key = recordedKey P (view s.world).kernel canonical ∧
        entry.lastDriver = applied.getD [] ∧ entry.lastSysfsPath = canonical := by
  have hrest : ∀ key, key = recordedKey P (view s.world).kernel canonical →
      Leaves (respond J Q t) (do
      let applied ← setEnabled none canonical false []
      let now ← call (S := daemon) .nowUtc
      ExceptT.mk (call (S := daemon) (.upsert {
        key
        mechanism := if applied.isSome then str "unbind" else str "authorized"
        lastDriver := applied.getD []
        lastSysfsPath := canonical
        disabledAtUtc := now
        guardSuspended := false }) >>= orRaise) : Verb Unit).run s fun r s' => r = .ok () →
      ∃ (applied : Option Str) (entry : DisabledDeviceEntry),
        SysfsDeviceController.setEnabled F P sysfsRoot (view s.world) canonical false [] =
          (.ok applied, view s'.world) ∧
        s'.entries = StateStore.upsert entry s.entries ∧
        entry.key = recordedKey P (view s.world).kernel canonical ∧
        entry.lastDriver = applied.getD [] ∧ entry.lastSysfsPath = canonical := by
    intro key hkey
    refine leaves_step.mpr (leaves_call.mpr ?_)
    have hwritten := hbehind.setEnabled s.world canonical false []
    cases hresult : (Q.setEnabled s.world canonical false []).1 with
    | error error =>
      simp only [respond, State.act, hresult]
      intro h
      cases h
    | ok applied =>
      simp only [respond, State.act, hresult]
      refine leaves_step.mpr (leaves_lift.mpr (leaves_call.mpr ?_))
      refine leaves_bind.mpr (leaves_call.mpr (leaves_orRaise.mpr fun result _ _ => ?_))
      refine ⟨applied, _, ?_, save_entries .., hkey, rfl, rfl⟩
      have hsaved : ∀ (s' : State W) (entry : DisabledDeviceEntry),
          view (respond J Q t (.upsert entry) s').2.world = view s'.world :=
            fun _ _ => save_view hbehind _
      rw [← hwritten, hresult, hsaved]
      rfl
  refine leaves_step.mpr (leaves_lift.mpr ((leaves_enumerated hbehind).mono ?_))
  rintro all s' ⟨rfl, rfl⟩
  dsimp only
  cases hfind : ((P.enumerate (view s'.world).kernel).toOption.getD []).find? fun d =>
    d.sysfsPath = canonical with
  | some device =>
    refine leaves_step.mpr (leaves_pure.mpr (hrest _ ?_))
    rw [recordedKey, hfind]
  | none =>
    refine leaves_step.mpr (leaves_map.mpr (leaves_lift.mpr (leaves_deviceFromSysfs.mono ?_)))
    rintro device s'' ⟨rfl, hdevice⟩
    refine hrest _ ?_
    rw [recordedKey, hfind, ← identityAt_view hbehind]
    unfold makeDeviceKey
    rw [hdevice.bus, hdevice.vendorId, hdevice.productId, hdevice.serial, hdevice.sysfsPath]

def hintFor (entries : List DisabledDeviceEntry) (device : Device) : Str :=
  ((entries.find? fun e => FoundFor e device).map DisabledDeviceEntry.lastDriver).getD []

theorem does_applyEnable (hbehind : Behind F P sysfsRoot Q view)
    (hpresent : P.isDirectory (view s.world).kernel canonical = true) :
    Does (respond J Q t) (applyEnable canonical).run s
      (fun o => ∀ path hint, o = .setEnabled none path true hint → path = canonical ∧
        hint = hintFor s.entries (P.identityAt (view s.world).kernel canonical))
      fun r s' => r = .ok () → ∃ applied,
        SysfsDeviceController.setEnabled F P sysfsRoot (view s.world) canonical true
          (hintFor s.entries (P.identityAt (view s.world).kernel canonical)) = (.ok applied,
            view s'.world) := by
  have henable : ∀ s' : State W, view s'.world = view s.world → ∀ hint,
      hint = hintFor s.entries (P.identityAt (view s.world).kernel canonical) →
      Does (respond J Q t) (discard (setEnabled none canonical true hint) : Verb Unit).run s'
        (fun o => ∀ path hint, o = .setEnabled none path true hint → path = canonical ∧
          hint = hintFor s.entries (P.identityAt (view s.world).kernel canonical))
        fun r s' => r = .ok () → ∃ applied,
          SysfsDeviceController.setEnabled F P sysfsRoot (view s.world) canonical true
            (hintFor s.entries (P.identityAt (view s.world).kernel canonical)) = (.ok applied,
              view s'.world) := by
    rintro s' hview hint rfl
    refine does_map (does_call (fun _ _ ho => ?_) fun hok => ?_)
    · obtain ⟨-, rfl, -, rfl⟩ := Op.setEnabled.inj ho
      exact ⟨rfl, rfl⟩
    have hwritten := hbehind.setEnabled s'.world canonical true
      (hintFor s.entries (P.identityAt (view s.world).kernel canonical))
    rw [hview] at hwritten
    cases hresult : (Q.setEnabled s'.world canonical true
        (hintFor s.entries (P.identityAt (view s.world).kernel canonical))).1 with
    | error error =>
      simp only [respond, State.act, hresult] at hok
      cases hok
    | ok applied => exact ⟨applied, hwritten.symm.trans (congrArg (Prod.mk · _) hresult)⟩
  have hother : ∀ o : Op, o.NoWrite → ∀ path hint, o = .setEnabled none path true hint →
      path = canonical ∧
      hint = hintFor s.entries (P.identityAt (view s.world).kernel canonical) :=
    fun o ho path hint heq => (ho _ _ _ heq).elim
  refine does_step (does_lift (does_call (hother _ fun _ _ _ h => by cases h) ?_))
  have hdirectory : Q.isDirectory s.world canonical = true :=
    (hbehind.isDirectory ..).trans hpresent
  simp only [respond, hdirectory, if_true]
  refine does_step
    (does_map (does_lift (does_only ((sees_deviceFromSysfs canonical).mono fun o ho =>
    hother o (noWrite_of_reads (.inl ho))) (leaves_deviceFromSysfs.mono ?_))))
  rintro device s' ⟨rfl, hdevice⟩
  rw [identityAt_view hbehind] at hdevice
  refine does_step (does_lift (does_call (hother _ fun _ _ _ h => by cases h) ?_))
  dsimp only [respond]
  rw [foundFor_probed canonical hdevice rfl]
  cases hfind : s'.entries.find? fun e =>
    FoundFor e (P.identityAt (view s'.world).kernel canonical) with
  | none => exact henable s' rfl _ (by rw [hintFor, hfind]; rfl)
  | some e =>
    refine does_step
      (does_bind (does_call (hother _ fun _ _ _ h => by cases h) (does_orRaise fun result _ => ?_)))
    cases result with
    | error error =>
      intro h
      cases h
    | ok u => exact henable _ (save_view hbehind _) _ (by rw [hintFor, hfind]; rfl)

theorem through_setDeviceEnabled (caller path : Str) :
    Through (fun o : Op => ∃ path hint, o = .setEnabled none path true hint) (· = .ok ())
      (setDeviceEnabled sysfsRoot caller path true).run := by
  refine through_step nofun fun _ => through_step nofun fun _ => through_step nofun fun canonical =>
    through_step nofun fun _ => through_then fun _ =>
      through_ending (through_step nofun fun _ => ?_)
  refine through_step nofun fun present => ?_
  have hrest : ∀ probed : Option Device, Through
      (fun o : Op => ∃ path hint, o = .setEnabled none path true hint)
      (· = .ok ()) (do
        let found := (← entries).find? fun e =>
          e.lastSysfsPath = canonical ∨ probed.any fun device => matchesDevice e.key device
        match found with
        | none => discard (setEnabled none canonical true [])
        | some e =>
          ExceptT.mk (call (S := daemon) (.remove e.key) >>= orRaise)
          discard (setEnabled none canonical true e.lastDriver) : Verb Unit).run := by
    refine fun probed => through_step nofun fun entries => ?_
    dsimp only
    split
    · exact through_now ⟨_, _, rfl⟩
    · exact through_step nofun fun _ => through_now ⟨_, _, rfl⟩
  split_ifs
  · exact through_step nofun hrest
  · exact through_step nofun hrest

end Verb

section Runs
variable {K W : Type} (J : Json.Codec) (F : Sysfs K) (P : Platform K) (sysfsRoot : Str)
  (Q : Platform W) (view : W → Attributed K) (t : Thread) (canonical : Str)

structure Keeps (k k' : K) : Prop where
  same : P.SameAt canonical k k'
  authorized : P.pathExists k' (authorizedOf canonical) = P.pathExists k (authorizedOf canonical)

structure Unbinds : Prop where
  fixed : ∀ k path, P.weaklyCanonical k path = some canonical →
    P.weaklyCanonical k canonical = some canonical
  unbind : ∀ k k' bus driver, busDirFor P k canonical = .ok bus →
    boundDriverName F k canonical = some driver →
    F.write k (unbindOf bus driver) (lastSegment canonical) = (true, k') →
    boundDriverName F k' canonical = none ∧ Keeps P canonical k k'

structure Elsewhere (keys : List DeviceKey) (s s' : State W) : Prop where
  found : s'.entries.find? (Concerns (P.identityAt (view s.world).kernel canonical) keys ·) =
    s.entries.find? (Concerns (P.identityAt (view s.world).kernel canonical) keys ·)
  keeps : Keeps P canonical (view s.world).kernel (view s'.world).kernel
  driver : boundDriverName F (view s'.world).kernel canonical = boundDriverName F
      (view s.world).kernel canonical

/-- Successful disablings of the device and changes elsewhere; the keys recorded are told, in
order. -/
inductive Disabled (all : List DeviceKey) : List DeviceKey → State W → State W → Prop
  | start (s : State W) : Disabled all [] s s
  | elsewhere {keys : List DeviceKey} {s s' s'' : State W} : Disabled all keys s s' →
      Elsewhere F P view canonical all s' s'' → Disabled all keys s s''
  | again {keys : List DeviceKey} {s s' : State W} {caller path : Str} : Disabled all keys s s' →
      P.weaklyCanonical (view s'.world).kernel path = some canonical →
      (run (respond J Q t) (setDeviceEnabled sysfsRoot caller path false).run s').value =
        some (.ok ()) →
      Disabled all (keys ++ [recordedKey P (view s'.world).kernel canonical]) s
        (run (respond J Q t) (setDeviceEnabled sysfsRoot caller path false).run s').state

variable {J F P sysfsRoot Q view t canonical} {s s' : State W} {driver : Str}

theorem Keeps.refl {k : K} : Keeps P canonical k k := ⟨.refl, rfl⟩

theorem Keeps.trans {k k' k'' : K} (h : Keeps P canonical k k') (h' : Keeps P canonical k' k'') :
    Keeps P canonical k k'' := ⟨h.same.trans h'.same, h'.authorized.trans h.authorized⟩

theorem disable_takes {w w' : Attributed K} {path : Str} {applied : Option Str}
    (hunbinds : Unbinds F P canonical) (hpath : P.weaklyCanonical w.kernel path = some canonical)
    (hauthorized : P.pathExists w.kernel (authorizedOf canonical) = false)
    (h : SysfsDeviceController.setEnabled F P sysfsRoot w canonical false [] = (.ok applied, w')) :
    applied.getD [] = (boundDriverName F w.kernel canonical).getD [] ∧
      boundDriverName F w'.kernel canonical = none ∧ Keeps P canonical w.kernel w'.kernel := by
  obtain ⟨device, hdevice, hcases⟩ := disable_cases h
  have hfixed := (canonicalDevice_ok hdevice).1.symm.trans (hunbinds.fixed _ _ hpath)
  obtain rfl := Option.some.inj hfixed
  rcases hcases with ⟨hexists, -, -⟩ | ⟨-, hnone, rfl, rfl⟩ |
    ⟨-, bus, bound, hbus, hbound, rfl, hwrite⟩
  · exact absurd (hexists.symm.trans hauthorized) (by decide)
  · exact ⟨by rw [hnone]; rfl, hnone, .refl⟩
  · obtain ⟨hgone, hkeeps⟩ := hunbinds.unbind _ _ _ _ hbus hbound (writeAttr_ok hwrite)
    exact ⟨by rw [hbound], hgone, hkeeps⟩

theorem disabled_remembers {all keys : List DeviceKey} (hbehind : Behind F P sysfsRoot Q view)
    (hunbinds : Unbinds F P canonical)
    (hauthorized : P.pathExists (view s.world).kernel (authorizedOf canonical) = false)
    (hdriver : boundDriverName F (view s.world).kernel canonical = some driver)
    (hrun : Disabled J F P sysfsRoot Q view t canonical all keys s s') (hkeys : keys ⊆ all) :
    Keeps P canonical (view s.world).kernel (view s'.world).kernel ∧
    boundDriverName F (view s'.world).kernel canonical =
      (if keys = [] then some driver else none) ∧
    Remembers canonical driver keys
      (s.entries.find? (Concerns (P.identityAt (view s.world).kernel canonical) all ·))
      (s'.entries.find? (Concerns (P.identityAt (view s.world).kernel canonical) all ·)) := by
  induction hrun with
  | start s => exact ⟨.refl, by rw [hdriver, if_pos rfl], .start⟩
  | elsewhere hrun helse ih =>
    obtain ⟨hkeeps, hbound, hremembers⟩ := ih hauthorized hdriver hkeys
    have hfound := helse.found
    rw [hkeeps.same.identityAt] at hfound
    exact ⟨hkeeps.trans helse.keeps, helse.driver.trans hbound, hfound ▸ hremembers⟩
  | @again keys s s' caller path hrun hpath hok ih =>
    obtain ⟨hkeeps, hbound, hremembers⟩ := ih hauthorized hdriver fun κ hκ =>
      hkeys (List.mem_append_left _ hκ)
    have hdone : Does (respond J Q t) (setDeviceEnabled sysfsRoot caller path false).run s'
        (fun _ => True)
        fun r s'' => r = .ok () → ∃ (applied : Option Str) (entry : DisabledDeviceEntry),
          SysfsDeviceController.setEnabled F P sysfsRoot (view s'.world) canonical false [] =
            (.ok applied, view s''.world) ∧
          s''.entries = StateStore.upsert entry s'.entries ∧
          entry.key = recordedKey P (view s'.world).kernel canonical ∧
          entry.lastDriver = applied.getD [] ∧ entry.lastSysfsPath = canonical := by
      refine does_setDeviceEnabled
        (R := fun entries w => ∃ (applied : Option Str) (entry : DisabledDeviceEntry),
        SysfsDeviceController.setEnabled F P sysfsRoot (view s'.world) canonical false
          [] = (.ok applied, w) ∧
        entries = StateStore.upsert entry s'.entries ∧
        entry.key = recordedKey P (view s'.world).kernel canonical ∧
        entry.lastDriver = applied.getD [] ∧ entry.lastSysfsPath = canonical)
        hbehind hpath (fun _ _ => trivial) fun s₁ hs₁ _ => ?_
      have hleaves := @leaves_applyDisable _ _ J _ _ _ _ _ t s₁ canonical hbehind
      rw [hs₁.view, hs₁.entries] at hleaves
      exact ⟨all_only (only_all (fun _ => trivial) _) _, hleaves⟩
    obtain ⟨applied, entry, hwrite, hentries, hkey, hlast, hsysfs⟩ := hdone.leaves _ hok rfl
    have hnone := hkeeps.authorized.trans hauthorized
    obtain ⟨happlied, hgone, hkeeps'⟩ := disable_takes hunbinds hpath hnone hwrite
    refine ⟨hkeeps.trans hkeeps', by rw [hgone, if_neg (by simp)], ?_⟩
    have hall : ∀ e : DisabledDeviceEntry, e.key = entry.key →
        Concerns (P.identityAt (view s.world).kernel canonical) all e := fun e he =>
      .inr (hkeys (by rw [he, hkey]; simp))
    rw [hentries, find_upsert hall, ← hkey]
    refine hremembers.again hsysfs ?_
    rw [hlast, happlied, hbound]
    split_ifs <;> rfl

theorem probe_ne_override (bus device : Str) : probeOf bus ≠ overrideOf device := by
  intro h
  have hprobe : 47 :: str "drivers_probe" <:+ overrideOf device := h ▸ List.suffix_append ..
  have hoverride : 47 :: str "driver_override" <:+ overrideOf device := List.suffix_append ..
  exact absurd (List.suffix_of_suffix_length_le hprobe hoverride (by decide)) (by decide)

theorem override_asked {w w' : Attributed K} {hint : Str} {applied : Option Str} (hne : driver ≠ [])
    (hdevice : canonicalDevice P sysfsRoot w.kernel canonical = .ok canonical)
    (hauthorized : P.pathExists w.kernel (authorizedOf canonical) = false)
    (hoverride : P.pathExists w.kernel (overrideOf canonical) = true)
    (h : SysfsDeviceController.setEnabled F P sysfsRoot w canonical true hint = (.ok applied, w')) :
    (overrideOf canonical, driver) ∈ w'.asked.drop w.asked.length ↔ hint = driver := by
  obtain ⟨bus, hasked⟩ := enable_asks hdevice hauthorized h
  have hprobe := probe_ne_override bus canonical
  rw [hasked, List.drop_left]
  by_cases hhint : hint = []
  · simp [hhint, hprobe.symm, hne.symm]
  · simp [hhint, hoverride, hprobe.symm, hne, eq_comm]

theorem foundFor_first {entries : List DisabledDeviceEntry} {device : Device}
    {keys : List DeviceKey}
    {e : DisabledDeviceEntry} (h : entries.find? (Concerns device keys ·) = some e)
    (he : FoundFor e device) :
    entries.find? (FoundFor · device) = some e := by
  obtain ⟨-, before, after, rfl, hbefore⟩ := List.find?_eq_some_iff_append.mp h
  refine List.find?_eq_some_iff_append.mpr
    ⟨by simpa using he, before, after, rfl, fun e' he' => ?_⟩
  have hnot : ¬ Concerns device keys e' := by simpa using hbefore e' he'
  simpa using fun hfound : FoundFor e' device => hnot (.inl hfound)

/-- After disablings of a device without the attribute, its enabling is given the driver that was
bound, and targets it, exactly when the entry found for the device still holds it. -/
theorem rebind_hint_iff {first : DeviceKey} {later : List DeviceKey} {caller path : Str}
    (hbehind : Behind F P sysfsRoot Q view) (hunbinds : Unbinds F P canonical)
    (hauthorized : P.pathExists (view s.world).kernel (authorizedOf canonical) = false)
    (hdriver : boundDriverName F (view s.world).kernel canonical = some driver)
    (hrun : Disabled J F P sysfsRoot Q view t canonical (first :: later) (first :: later) s s')
    (hpath : P.weaklyCanonical (view s'.world).kernel path = some canonical) :
    let enabling := run (respond J Q t) (setDeviceEnabled sysfsRoot caller path true).run s'
    let found :=
      s.entries.find? (Concerns (P.identityAt (view s.world).kernel canonical) (first :: later) ·)
    (∀ path' hint, Op.setEnabled none path' true hint ∈ enabling.issued →
      path' = canonical ∧ (hint = driver ↔ HintKept found first later driver)) ∧
    (enabling.value = some (.ok ()) →
      (∃ hint, Op.setEnabled none canonical true hint ∈ enabling.issued) ∧
      (driver ≠ [] → P.pathExists (view s'.world).kernel (overrideOf canonical) = true →
        ((overrideOf canonical, driver) ∈
            (view enabling.state.world).asked.drop (view s'.world).asked.length ↔
          HintKept found first later driver))) := by
  intro enabling found
  obtain ⟨hkeeps, -, hremembers⟩ :=
    disabled_remembers hbehind hunbinds hauthorized hdriver hrun (List.Subset.refl _)
  obtain ⟨e, hfound, hrecorded, hunrecorded, hdriver'⟩ := hremembers.hint
  have hentry : FoundFor e (P.identityAt (view s.world).kernel canonical) := by
    by_cases hmem : e.key ∈ first :: later
    · exact .inr (hrecorded hmem)
    · have hconcerns := List.find?_some (hunrecorded hmem)
      exact (of_decide_eq_true hconcerns).resolve_right hmem
  have hhint : hintFor s'.entries (P.identityAt (view s'.world).kernel canonical) =
      e.lastDriver := by
    rw [hkeeps.same.identityAt, hintFor, foundFor_first hfound hentry]
    rfl
  have hdoes : Does (respond J Q t) (setDeviceEnabled sysfsRoot caller path true).run s'
      (fun o => ∀ path hint, o = .setEnabled none path true hint → path = canonical ∧
        hint = hintFor s'.entries (P.identityAt (view s'.world).kernel canonical))
      fun r s'' => r = .ok () →
        ∃ applied, SysfsDeviceController.setEnabled F P sysfsRoot (view s'.world) canonical
        true (hintFor s'.entries (P.identityAt (view s'.world).kernel canonical)) = (.ok applied,
          view s''.world) := by
    refine does_setDeviceEnabled (R := fun _ w => ∃ applied,
      SysfsDeviceController.setEnabled F P sysfsRoot (view s'.world) canonical true
        (hintFor s'.entries (P.identityAt (view s'.world).kernel canonical)) = (.ok applied, w))
      hbehind hpath (fun o ho path hint heq => (ho _ _ _ heq).elim) fun s₁ hs₁ hpresent => ?_
    have happlied :=
      @does_applyEnable _ _ J _ _ _ _ _ t s₁ canonical hbehind (hs₁.view ▸ hpresent)
    rw [hs₁.view, hs₁.entries] at happlied
    exact happlied
  rw [hhint] at hdoes
  refine ⟨fun path' hint hissued => ?_, fun hok => ⟨?_, fun hne hoverride => ?_⟩⟩
  · obtain ⟨rfl, rfl⟩ := hdoes.issues _ hissued path' hint rfl
    exact ⟨rfl, hdriver'⟩
  · obtain ⟨o, hissued, path', hint, rfl⟩ :=
      (through_setDeviceEnabled caller path).issued hok rfl
    obtain ⟨rfl, -⟩ := hdoes.issues _ hissued path' hint rfl
    exact ⟨hint, hissued⟩
  · obtain ⟨applied, hwrite⟩ := hdoes.leaves _ hok rfl
    obtain ⟨device, hdevice⟩ := setEnabled_device hwrite
    have hfixed := (canonicalDevice_ok hdevice).1.symm.trans (hunbinds.fixed _ _ hpath)
    obtain rfl := Option.some.inj hfixed
    exact (override_asked hne hdevice (hkeeps.authorized.trans hauthorized) hoverride hwrite).trans
      hdriver'

end Runs

namespace Port
open Linux.Port

abbrev switching (enabled : Bool) (s : State (Attributed Port)) :
    Ran daemon (Result Unit) (State (Attributed Port)) :=
  run (respond Json.reference switched .bus)
    (setDeviceEnabled (str "/sys") (str ":1.9") path enabled).run s

def hintsOf (issued : List Op) : List Str :=
  issued.filterMap fun o => match o with
    | .setEnabled none _ true hint => some hint
    | _ => none

def cardKey : DeviceKey := ⟨str "pci", str "8086", str "15f3", [], str "p0"⟩

theorem unbinds_port : Unbinds sysfs platform path where
  fixed _ _ _ := rfl
  unbind k k' bus driver _ _ hwrite := by
    obtain rfl := write_unbind hwrite
    refine ⟨rfl, ⟨rfl, rfl, fun _ _ => rfl⟩, ?_⟩
    have hdriver : authorizedOf path ≠ child path (str "driver") := by decide
    simp [platform, hdriver]

abbrev disabledOnce : State (Attributed Port) := (switching false (idle card [])).state

abbrev disabledTwice : State (Attributed Port) := (switching false disabledOnce).state

theorem disabled_card {all keys : List DeviceKey} {s : State (Attributed Port)}
    (hrun : Disabled Json.reference sysfs platform (str "/sys") switched id .bus path all keys
      (idle card []) s)
    (hkey : recordedKey platform s.world.kernel path = cardKey)
    (hok : (switching false s).value = some (.ok ())) :
    Disabled Json.reference sysfs platform (str "/sys") switched id .bus path all
      (keys ++ [cardKey])
      (idle card []) (switching false s).state := by
  rw [← hkey]
  exact .again hrun rfl hok

theorem disabled_once : Disabled Json.reference sysfs platform (str "/sys") switched id .bus path
    [cardKey] [cardKey]
    (idle card []) disabledOnce := disabled_card (.start _) (by rfl) (by rfl)

theorem rebind_hint_once :
    Op.setEnabled none path true (str "igc") ∈ (switching true disabledOnce).issued ∧
    (overrideOf path, str "igc") ∈ (switching true disabledOnce).state.world.asked.drop 1 := by
  have hok : (switching true disabledOnce).value = some (.ok ()) := by rfl
  have hpath : platform.weaklyCanonical (id disabledOnce.world : Attributed Port).kernel path =
      some path := rfl
  have hhint := @rebind_hint_iff _ _ Json.reference _ _ _ _ _ .bus _ _ _ _ _ _ (str ":1.9") _
    behind_switched unbinds_port (by rfl) (by rfl) disabled_once hpath
  obtain ⟨hissued, hasked⟩ := hhint.2 hok
  obtain ⟨hint, hissued⟩ := hissued
  have hkept : HintKept none cardKey [] (str "igc") := by decide
  obtain rfl := ((hhint.1 path hint hissued).2.mpr hkept)
  exact ⟨hissued, (hasked (by decide) (by rfl)).mpr hkept⟩

theorem rebind_hint_twice :
    ∃ s, Disabled Json.reference sysfs platform (str "/sys") switched id .bus path
      [cardKey, cardKey] [cardKey, cardKey] (idle card []) s ∧
    boundDriverName sysfs card path = some (str "igc") ∧
    (switching true s).value = some (.ok ()) ∧
    hintsOf (switching true s).issued = [[]] ∧
    (overrideOf path, str "igc") ∉ (switching true s).state.world.asked := by
  have honce : Disabled Json.reference sysfs platform (str "/sys") switched id .bus path
      [cardKey, cardKey]
      [cardKey] (idle card []) disabledOnce := disabled_card (.start _) (by rfl) (by rfl)
  exact ⟨disabledTwice,
    disabled_card honce (by rfl) (by rfl), by rfl, by rfl, by rfl, by decide⟩

end Port

end DevMgr.Daemon
