import DevMgr.Daemon.EnforcementCoverage
import DevMgr.Daemon.RebindHint
import DevMgr.Linux.Disabling

/-!
# Enforcing twice

A sweep that has met no error leaves every device it matches in the state its entry
asks for, as the controller sees it. The next sweep, or an event, looks again by
what udev and the probe show, and writes wherever the two disagree.
-/

open DevMgr.Core

namespace DevMgr.Daemon
open Bytes Linux Program

variable {K W : Type}

def locatedIn (P : Platform K) (k : K) (all : List Device) (e : DisabledDeviceEntry) :
    Option Device :=
  (all.find? fun d => FoundFor e d).or
    (if e.lastSysfsPath ≠ [] ∧ P.isDirectory k e.lastSysfsPath = true then
      some (P.deviceAt k e.lastSysfsPath)
    else none)

def reapplied (F : Sysfs K) (P : Platform K) (sysfsRoot : Str)
    (e : DisabledDeviceEntry) (d : Device) (w : Attributed K) : Attributed K :=
  if needsApply e d = true ∧ P.probeError w.kernel = none ∧
      (evaluateDisable (P.facts w.kernel) d.sysfsPath).allowed = true then
    (SysfsDeviceController.setEnabled F P sysfsRoot w d.sysfsPath false []).2
  else w

def swept (F : Sysfs K) (P : Platform K) (sysfsRoot : Str) (all : List Device)
    (e : DisabledDeviceEntry) (w : Attributed K) : Attributed K :=
  (locatedIn P w.kernel all e).elim w fun d => reapplied F P sysfsRoot e d w

section Turns
variable {J : Json.Codec} {F : Sysfs K} {P : Platform K} {sysfsRoot : Str} {Q : Platform W}
  {view : W → Attributed K} {t : Thread} {s : State W} {e : DisabledDeviceEntry} {d : Device}
  {all : List Device}

def KeepsView (J : Json.Codec) (Q : Platform W) (view : W → Attributed K) (t : Thread)
    (o : Op) : Prop :=
  ∀ s, view (respond J Q t o s).2.world = view s.world

theorem updateEntry_view (hbehind : Behind F P sysfsRoot Q view) (key : DeviceKey)
    (f : DisabledDeviceEntry → DisabledDeviceEntry) :
    view (s.updateEntry J Q key f).2.world = view s.world := by
  unfold State.updateEntry
  cases StateStore.update key f s.entries with
  | none => rfl
  | some entries => exact save_view hbehind entries

theorem view_only {α : Type} {p : Prog daemon α} (h : Only (KeepsView J Q view t) p) :
    view (run (respond J Q t) p s).state.world = view s.world :=
  run_keeps (K := fun s' => view s'.world = view s.world) _ h
    (fun _ s' ho hs' => (ho s').trans hs') rfl

theorem view_then {α β : Type} {p : Prog daemon α} {f : α → Prog daemon β}
    (hf : ∀ a, Only (KeepsView J Q view t) (f a)) :
    view (run (respond J Q t) (p >>= f) s).state.world = view
      (run (respond J Q t) p s).state.world := by
  rw [run_bind, Ran.andThen]
  cases (run (respond J Q t) p s).value with
  | none => rfl
  | some a => exact view_only (hf a)

theorem view_reapplyLocked (hbehind : Behind F P sysfsRoot Q view) :
    view (run (respond J Q t) (locked (reapplyLocked e d)) s).state.world =
      (SysfsDeviceController.setEnabled F P sysfsRoot (view s.world) d.sysfsPath false []).2 := by
  have hlock : run (respond J Q t) (call (S := daemon) .lock) s =
      ⟨[.lock], some (), { s with holder := some t }⟩ := rfl
  rw [locked, run_bind, hlock]
  simp only [Ran.andThen, run_ending]
  change view (run (respond J Q t) (reapplyLocked e d) _).state.world = _
  unfold reapplyLocked
  refine (view_then fun result => ?_).trans
    (congrArg Prod.snd (hbehind.setEnabled s.world d.sysfsPath false []))
  cases result with
  | error error => exact only_pure _
  | ok applied =>
    exact only_recorded (fun _ => updateEntry_view hbehind ..) fun _ => updateEntry_view hbehind ..

theorem view_maybeReapply (hbehind : Behind F P sysfsRoot Q view) :
    view (run (respond J Q t) (maybeReapply e d) s).state.world = reapplied F P sysfsRoot e d
      (view s.world) := by
  have hcall : run (respond J Q t) probe.run s = ⟨[.probe], some (Q.probe s.world), s⟩ := rfl
  unfold reapplied
  rw [maybeReapply_eq, behindGuard]
  by_cases hneeds : needsApply e d = true
  · rw [if_neg (not_not.mpr hneeds), run_bind, hcall, Platform.probe,
      hbehind.probeError, hbehind.facts]
    cases hprobed : P.probeError (view s.world).kernel with
    | some error => simp [Ran.andThen]
    | none =>
      simp only [Ran.andThen]
      by_cases hallowed :
          (evaluateDisable (P.facts (view s.world).kernel) d.sysfsPath).allowed = true
      · rw [if_neg (not_not.mpr hallowed), if_pos ⟨hneeds, trivial, hallowed⟩]
        exact view_reapplyLocked hbehind
      · rw [if_pos hallowed, if_neg fun h => hallowed h.2.2]
        exact view_only (only_bind (only_setGuardSuspended fun _ => updateEntry_view hbehind ..)
          fun _ => only_pure _)
  · rw [if_pos hneeds, if_neg fun h => hneeds h.1]
    rfl

theorem leaves_locate {R : Option Device → State W → Prop} :
    Leaves (respond J Q t) (locate all e) s R ↔ R (locatedIn Q s.world all e) s := by
  unfold locate locatedIn
  cases all.find? fun d => FoundFor e d with
  | some d => exact leaves_pure
  | none =>
    dsimp only
    by_cases hblank : e.lastSysfsPath = []
    · rw [if_pos hblank]
      refine leaves_pure.trans ?_
      simp [hblank]
    · rw [if_neg hblank]
      refine leaves_bind.trans (leaves_call.trans ?_)
      by_cases hdir : Q.isDirectory s.world e.lastSysfsPath = true
      · simp only [respond, hdir]
        refine leaves_bind.trans (leaves_deviceAt.trans (leaves_pure.trans ?_))
        simp [hblank]
      · simp only [respond, hdir]
        refine leaves_pure.trans ?_
        simp

theorem locatedIn_view (hbehind : Behind F P sysfsRoot Q view) (w : W) :
    locatedIn Q w all e = locatedIn P (view w).kernel all e := by
  unfold locatedIn Platform.deviceAt Platform.statusAt Platform.driverAt
    Platform.identityAt Platform.busAt
    Platform.attrOr Platform.attr
  simp only [hbehind.weaklyCanonical, hbehind.firstLine, hbehind.pathExists, hbehind.isDirectory]

theorem run_locate (hbehind : Behind F P sysfsRoot Q view) :
    (run (respond J Q t) (locate all e) s).value =
      some (locatedIn P (view s.world).kernel all e) := by
  obtain ⟨found, hfound⟩ := run_total (respond J Q t) (total_locate all e) s
  have hleaves : Leaves (respond J Q t) (locate all e) s fun found _ =>
    found = locatedIn Q s.world all e :=
    leaves_locate.mpr rfl
  rw [hfound, hleaves found hfound, locatedIn_view hbehind]

theorem located_iff (hbehind : Behind F P sysfsRoot Q view) :
    Located J Q t all e s d ↔ locatedIn P (view s.world).kernel all e = some d := by
  unfold Located
  rw [run_locate hbehind, Option.some.injEq]

theorem view_sweepEntry (hbehind : Behind F P sysfsRoot Q view) :
    view (run (respond J Q t) (sweepEntry all e) s).state.world = swept F P sysfsRoot all e
      (view s.world) := by
  unfold swept
  rw [sweepEntry, run_bind, Ran.andThen, run_locate hbehind, run_locate_state]
  cases locatedIn P (view s.world).kernel all e with
  | none => rfl
  | some d => exact view_maybeReapply hbehind

theorem reapplied_quiet {w : Attributed K}
    (h : ¬ (needsApply e d = true ∧ P.probeError w.kernel = none ∧
    (evaluateDisable (P.facts w.kernel) d.sysfsPath).allowed = true ∧
    Writes F P sysfsRoot w.kernel d.sysfsPath)) : reapplied F P sysfsRoot e d w = w := by
  unfold reapplied
  split_ifs with happlies
  · exact setEnabled_quiet fun hwrites => h ⟨happlies.1, happlies.2.1, happlies.2.2, hwrites⟩
  · rfl

theorem reapplied_writes {w : Attributed K}
    (h : needsApply e d = true ∧ P.probeError w.kernel = none ∧
    (evaluateDisable (P.facts w.kernel) d.sysfsPath).allowed = true ∧
    Writes F P sysfsRoot w.kernel d.sysfsPath) :
    (reapplied F P sysfsRoot e d w).asked.length = w.asked.length + 1 := by
  unfold reapplied
  rw [if_pos ⟨h.1, h.2.1, h.2.2.1⟩]
  exact setEnabled_writes h.2.2.2

end Turns

/-- Entries as disablings leave them, each of a device whose path has been resolved. -/
inductive Produced (J : Json.Codec) (P : Platform K) (Q : Platform W)
    (view : W → Attributed K) (t : Thread) (Possible : K → Prop) : List DisabledDeviceEntry → Prop
  | start : Produced J P Q view t Possible []
  | disabled {s : State W} {link canonical : Str} : Produced J P Q view t Possible s.entries →
      Possible (view s.world).kernel →
      P.weaklyCanonical (view s.world).kernel link = some canonical →
      P.isDirectory (view s.world).kernel canonical = true →
      (run (respond J Q t) (applyDisable canonical).run s).value = some (.ok ()) →
      Produced J P Q view t Possible
        (run (respond J Q t) (applyDisable canonical).run s).state.entries

def Resolved (P : Platform K) (Possible : K → Prop) (e : DisabledDeviceEntry) : Prop :=
  ∃ k link, Possible k ∧ P.weaklyCanonical k link = some e.lastSysfsPath ∧
    P.isDirectory k e.lastSysfsPath = true

theorem upsert_forall {p : DisabledDeviceEntry → Prop} {entry : DisabledDeviceEntry}
    {entries : List DisabledDeviceEntry} (hentry : p entry) (h : ∀ e ∈ entries, p e) :
    ∀ e ∈ StateStore.upsert entry entries, p e := by
  unfold StateStore.upsert
  cases hupdate : StateStore.update entry.key (fun _ => entry) entries with
  | none => exact List.forall_mem_append.mpr ⟨h, List.forall_mem_singleton.mpr hentry⟩
  | some entries' => exact update_forall (fun _ _ => hentry) h hupdate

theorem Produced.resolved {J : Json.Codec} {F : Sysfs K} {P : Platform K}
    {sysfsRoot : Str} {Q : Platform W} {view : W → Attributed K} {t : Thread} {Possible : K → Prop}
    {entries : List DisabledDeviceEntry}
    (hbehind : Behind F P sysfsRoot Q view) (h : Produced J P Q view t Possible entries) :
    ∀ e ∈ entries, Resolved P Possible e := by
  induction h with
  | start => exact nofun
  | @disabled s link canonical _ hpossible hcanonical hdir hok ih =>
    obtain ⟨applied, entry, _, hentries, _, _, hpath⟩ := leaves_applyDisable hbehind _ hok rfl
    rw [hentries]
    refine upsert_forall ⟨_, link, hpossible, ?_⟩ ih
    rw [hpath]
    exact ⟨hcanonical, hdir⟩

def Matched (P : Platform K) (k : K) (e : DisabledDeviceEntry) (d : Device) : Prop :=
  d ∈ listed P k ∧ FoundFor e d ∨
    P.isDirectory k e.lastSysfsPath = true ∧ P.deviceAt k e.lastSysfsPath = d

/-- What the next look at the device depends on: the attribute is looked at on the USB bus only, and
by an entry for it. -/
def Recognised (P : Platform K) (k : K) (e : DisabledDeviceEntry) (d : Device) : Prop :=
  P.pathExists k (authorizedOf d.sysfsPath) = true →
    if e.mechanism = str "authorized" then d.bus = .usb else d.boundDriver = none

section Matched
variable {F : Sysfs K} {P : Platform K} {sysfsRoot : Str} {Possible : K → Prop} {k k' : K}
  {e : DisabledDeviceEntry} {d : Device} {all : List Device}

theorem Matched.present (h : Matched P k e d) : Present P k d := by
  rcases h with ⟨hlisted, _⟩ | ⟨hdir, rfl⟩
  · exact .inl hlisted
  · exact .inr ⟨hdir, rfl⟩

theorem locatedIn_cases (h : locatedIn P k all e = some d) :
    d ∈ all ∧ FoundFor e d ∨ P.isDirectory k e.lastSysfsPath = true ∧
    P.deviceAt k e.lastSysfsPath = d := by
  unfold locatedIn at h
  cases hfind : all.find? fun d => FoundFor e d with
  | some found =>
    rw [hfind] at h
    obtain rfl : found = d := Option.some.inj h
    exact .inl ⟨List.mem_of_find?_eq_some hfind, by simpa using List.find?_some hfind⟩
  | none =>
    rw [hfind, Option.none_or] at h
    split_ifs at h with hstored
    exact .inr ⟨hstored.2, Option.some.inj h⟩

theorem canonical_of_located (h : Kernel F P sysfsRoot Possible) (hk : Possible k)
    (hk' : Possible k')
    (he : Resolved P Possible e) (hlocated : locatedIn P k' (listed P k) e = some d) :
    P.weaklyCanonical k' d.sysfsPath = some d.sysfsPath := by
  rcases locatedIn_cases hlocated with ⟨hlisted, _⟩ | ⟨_, rfl⟩
  · obtain ⟨x, rfl, hreported⟩ := h.udev hk hlisted
    exact h.canonical hk hk' hreported.canonical hreported.directory
  · obtain ⟨k₀, link, hk₀, hcanonical, hdir⟩ := he
    exact h.canonical hk₀ hk' hcanonical hdir

theorem recognised_iff (h : Kernel F P sysfsRoot Possible) (hk : Possible k) (hd : Matched P k e d)
    (hquiet : needsApply e d = true → Handled F P sysfsRoot k d.sysfsPath) :
    ¬ (needsApply e d = true ∧ Writes F P sysfsRoot k d.sysfsPath) ↔ Recognised P k e d := by
  have hshown := shown_of_present h hk hd.present
  have hneeds : needsApply e d = true ↔
      if e.mechanism = str "authorized" then d.status ≠ .disabled
        else d.boundDriver ≠ none := by
    unfold needsApply
    split_ifs
    · exact decide_eq_true_iff
    · exact Option.isSome_iff_ne_none
  constructor
  · intro hnot hattribute
    have happlied : ¬ needsApply e d = true := by
      intro happly
      obtain ⟨hdevice, _⟩ := hquiet happly hshown.directory
      exact hnot ⟨happly, _, hdevice, .inl hattribute⟩
    rw [hneeds] at happlied
    split_ifs at happlied ⊢
    · exact hshown.usb (not_not.mp happlied)
    · exact not_not.mp happlied
  · rintro hrecognised ⟨happly, device, hdevice, hwrites⟩
    obtain ⟨hok, hstill⟩ := hquiet happly hshown.directory
    obtain rfl : d.sysfsPath = device := Except.ok.inj (hok.symm.trans hdevice)
    unfold Still at hstill
    by_cases hattribute : P.pathExists k (authorizedOf d.sysfsPath) = true
    · rw [if_pos hattribute] at hstill
      have hrecognises := hrecognised hattribute
      rw [hneeds] at happly
      split_ifs at happly hrecognises
      · exact happly (hshown.disabled hrecognises hstill)
      · exact happly hrecognises
    · rw [if_neg hattribute] at hstill
      exact (hwrites.resolve_left hattribute).2 hstill

end Matched

section Sweep
variable (J : Json.Codec) (F : Sysfs K) (P : Platform K) (sysfsRoot : Str) (Q : Platform W)
  (view : W → Attributed K) (t : Thread) (s : State W)

def DisabledBySweep (path : Str) : Prop :=
  ∃ behalf hint, Op.setEnabled behalf path false hint ∈ (run (respond J Q t) sweep s).issued

/-- In the sweep no prober and no write fails and the guard lets every device go, and each device an
entry matches is in the state asked for or is disabled. -/
structure Clean : Prop where
  applied : ∀ x s' d, Turn (respond J Q t) (sweepEntry (present Q s)) s.entries s x s' →
    Located J Q t (present Q s) x s' d → needsApply x d = true →
    Q.probeError s'.world = none ∧ Allowed Q s' d.sysfsPath ∧
      ∃ applied, (Q.setEnabled s'.world d.sysfsPath false []).1 = .ok applied
  matched : ∀ e ∈ s.entries, ∀ d, Matched P (view s.world).kernel e d →
      needsApply e d = true →
    DisabledBySweep J Q t s d.sysfsPath

def Descends (e₁ : DisabledDeviceEntry) : Prop :=
  ∃ e ∈ s.entries, e₁.key = e.key ∧ e₁.mechanism = e.mechanism ∧
    (e₁.lastSysfsPath = e.lastSysfsPath ∨ DisabledBySweep J Q t s e₁.lastSysfsPath)

variable {J F P sysfsRoot Q view t s} {Possible : K → Prop}

theorem present_view (hbehind : Behind F P sysfsRoot Q view) :
    present Q s = listed P (view s.world).kernel := by
  unfold present listed
  rw [hbehind.enumerate]

theorem updateEntry_forall {p : DisabledDeviceEntry → Prop} {key : DeviceKey}
    {f : DisabledDeviceEntry → DisabledDeviceEntry} (hf : ∀ e ∈ s.entries, p (f e))
    (hp : ∀ e ∈ s.entries, p e) :
    ∀ e ∈ (s.updateEntry J Q key f).2.entries, p e := by
  unfold State.updateEntry
  cases hupdate : StateStore.update key f s.entries with
  | none => exact hp
  | some entries =>
    rw [save_entries]
    exact update_forall hf hp hupdate

theorem needsApply_mono {e e' : DisabledDeviceEntry} {d d' : Device}
    (hmechanism : e'.mechanism = e.mechanism)
    (hstatus : d.status = .disabled → d'.status = .disabled)
    (hdriver : d.boundDriver = none → d'.boundDriver = none) (h : needsApply e' d' = true) :
    needsApply e d = true := by
  unfold needsApply at h ⊢
  rw [hmechanism] at h
  split_ifs at h ⊢
  · exact decide_eq_true (mt hstatus (of_decide_eq_true h))
  · exact Option.isSome_iff_ne_none.mpr (mt hdriver (Option.isSome_iff_ne_none.mp h))

def Op.StoresIn (paths : Str → Prop) : Op → Prop
  | .setLastSysfsPath _ path => paths path
  | _ => True

theorem storesIn_of_sees {paths : Str → Prop} {o : Op} (h : o.Sees) : o.StoresIn paths := by
  cases o <;> first | exact h.elim | trivial

theorem stored_disabled :
    (run (respond J Q t) sweep s).All (Op.StoresIn (DisabledBySweep J Q t s)) := by
  have hcall : run (respond J Q t) entries s = ⟨[.entries], some s.entries, s⟩ := rfl
  rw [sweep, all_bind_single run_enumerated, all_bind_single hcall]
  refine ⟨trivial, trivial, all_forEach.mpr (along_iff_turns.mpr fun x s' hturn => ?_)⟩
  refine (all_located (fun _ => storesIn_of_sees) ?_).mpr fun d hlocated => ?_
  · exact all_pure
  change (run (respond J Q t) (maybeReapply x d) s').All _
  rw [maybeReapply_eq, all_behindGuard trivial]
  refine fun hneeds hprobe => ⟨fun hallowed => ?_, fun _ => ?_⟩
  · have hdisabled : DisabledBySweep J Q t s d.sysfsPath := by
      obtain ⟨behalf, hint, hissued⟩ := (enforces_sweepEntry.disables_iff hprobe).mpr
        ⟨d, hlocated, hneeds, hallowed, rfl⟩
      exact ⟨behalf, hint, (mem_issued_present _ id).mpr ⟨x, s', hturn, hissued⟩⟩
    exact all_only (only_locked trivial trivial (only_reapplyLocked trivial hdisabled trivial)) s'
  · exact all_only (only_bind (only_setGuardSuspended trivial) fun _ => only_pure _) s'

theorem descends_after :
    ∀ e₁ ∈ (run (respond J Q t) sweep s).state.entries, Descends J Q t s e₁ := by
  have hkeeps : (run (respond J Q t) sweep s).All fun o : Op =>
    o.StoresIn (DisabledBySweep J Q t s) →
      ∀ s' : State W, (∀ e ∈ s'.entries, Descends J Q t s e) →
        ∀ e ∈ (respond J Q t o s').2.entries, Descends J Q t s e := by
    refine all_only (only_sweep (fun _ _ => id) (fun _ _ => id) (fun _ _ => id) (fun _ _ _ _ => id)
      (fun key path hpath s' hs' => updateEntry_forall (fun e he => ?_) hs')
      (fun key suspended _ s' hs' => updateEntry_forall (fun e he => ?_) hs') fun o ho _ s' hs' =>
        ?_) s
    · obtain ⟨e₀, he₀, hkey, hmechanism, _⟩ := hs' e he
      exact ⟨e₀, he₀, hkey, hmechanism, .inr hpath⟩
    · exact hs' e he
    · rw [respond_reads J Q o s' (.inl ho)]
      exact hs'
  exact run_keeps_issued (K := fun s' => ∀ e ∈ s'.entries, Descends J Q t s e) _
    (fun o ho => hkeeps o ho (stored_disabled o ho)) (fun o s' ho hs' => ho s' hs')
    fun e he => ⟨e, he, rfl, rfl, .inl rfl⟩

section First
variable (hbehind : Behind F P sysfsRoot Q view) (hkernel : Kernel F P sysfsRoot Possible)
  (hpossible : Possible (view s.world).kernel) (hresolved : ∀ e ∈ s.entries, Resolved P Possible e)
  (hclean : Clean J P Q view t s)
include hbehind hkernel hpossible hresolved hclean

theorem turn_calms {x : DisabledDeviceEntry} {s' : State W}
    (hturn : Turn (respond J Q t) (sweepEntry (present Q s)) s.entries s x s')
    (hk : Possible (view s'.world).kernel) :
    let s'' := (run (respond J Q t) (sweepEntry (present Q s) x) s').state
    Possible (view s''.world).kernel ∧ Calms F P sysfsRoot (view s'.world).kernel
      (view s''.world).kernel ∧
      ∀ d, Located J Q t (present Q s) x s' d → needsApply x d = true →
        Handled F P sysfsRoot (view s''.world).kernel d.sysfsPath := by
  dsimp only
  rw [view_sweepEntry hbehind, swept]
  cases hlocated : locatedIn P (view s'.world).kernel (present Q s) x with
  | none =>
    refine ⟨hk, .refl, fun d hd => ?_⟩
    rw [located_iff hbehind, hlocated] at hd
    exact absurd hd (by simp)
  | some d =>
    have hfound : Located J Q t (present Q s) x s' d := (located_iff hbehind).mpr hlocated
    rw [Option.elim_some]
    by_cases hneeds : needsApply x d = true
    · obtain ⟨hprobe, hallowed, applied, hok⟩ := hclean.applied x s' d hturn hfound hneeds
      rw [hbehind.probeError] at hprobe
      rw [Allowed, hbehind.facts] at hallowed
      rw [reapplied, if_pos ⟨hneeds, hprobe, hallowed⟩]
      rw [present_view hbehind] at hlocated
      have hcanonical := canonical_of_located hkernel hpossible hk (hresolved x hturn.mem) hlocated
      have hwritten := hbehind.setEnabled s'.world d.sysfsPath false []
      have hresult : SysfsDeviceController.setEnabled F P sysfsRoot
          (view s'.world) d.sysfsPath false [] =
          (.ok applied,
            (SysfsDeviceController.setEnabled F P sysfsRoot
            (view s'.world) d.sysfsPath false []).2) :=
        Prod.ext ((congrArg Prod.fst hwritten).symm.trans hok) rfl
      obtain ⟨hk', hcalms, hhandled⟩ := handled_of_ok hkernel hk hcanonical hresult
      refine ⟨hk', hcalms, fun d' hd' _ => ?_⟩
      rw [located_unique hd' hfound]
      exact hhandled
    · rw [reapplied, if_neg fun h => hneeds h.1]
      refine ⟨hk, .refl, fun d' hd' hneeds' => ?_⟩
      rw [located_unique hd' hfound] at hneeds'
      exact absurd hneeds' hneeds

theorem sweep_calms : Possible (view (run (respond J Q t) sweep s).state.world).kernel ∧
    Calms F P sysfsRoot (view s.world).kernel
      (view (run (respond J Q t) sweep s).state.world).kernel := by
  rw [sameEnd_sweep.state]
  refine forEach_keeps (K := fun s' : State W => Possible (view s'.world).kernel ∧
    Calms F P sysfsRoot (view s.world).kernel (view s'.world).kernel) (fun x s' hturn hs' =>
      ?_) ⟨hpossible, .refl⟩
  obtain ⟨hk', hcalms, _⟩ := turn_calms hbehind hkernel hpossible hresolved hclean hturn hs'.1
  exact ⟨hk', hs'.2.trans hcalms⟩

theorem sweep_handled {path : Str} (h : DisabledBySweep J Q t s path) :
    Handled F P sysfsRoot (view (run (respond J Q t) sweep s).state.world).kernel path := by
  obtain ⟨behalf, hint, hissued⟩ := h
  obtain ⟨x, s', hturn, hissued⟩ := (mem_issued_present _ id).mp hissued
  obtain ⟨d, hlocated, hneeds, rfl⟩ := enforces_sweepEntry.located_of_disables hissued
  have hk : Possible (view s'.world).kernel :=
    hturn.begins (K := fun s' : State W => Possible (view s'.world).kernel) (fun x s' hturn hs' =>
      (turn_calms hbehind hkernel hpossible hresolved hclean hturn hs').1) hpossible
  obtain ⟨hk', _, hhandled⟩ := turn_calms hbehind hkernel hpossible hresolved hclean hturn hk
  rw [sameEnd_sweep.state]
  refine (hturn.lasts (K := fun s' : State W => Possible (view s'.world).kernel ∧
    Handled F P sysfsRoot (view s'.world).kernel d.sysfsPath) (fun y s'' hturn' hs'' => ?_)
    ⟨hk', hhandled d hlocated hneeds⟩).2
  obtain ⟨hk'', hcalms, _⟩ :=
    turn_calms hbehind hkernel hpossible hresolved hclean hturn' hs''.1
  exact ⟨hk'', hs''.2.calms hkernel hs''.1 hk'' hcalms⟩

theorem matched_handled {e₁ : DisabledDeviceEntry} {d₁ : Device}
    (he₁ : e₁ ∈ (run (respond J Q t) sweep s).state.entries)
    (hd₁ : Matched P (view (run (respond J Q t) sweep s).state.world).kernel e₁ d₁)
    (hneeds : needsApply e₁ d₁ = true) :
    Handled F P sysfsRoot
      (view (run (respond J Q t) sweep s).state.world).kernel d₁.sysfsPath := by
  have hhandled : ∀ path, DisabledBySweep J Q t s path → Handled F P sysfsRoot
      (view (run (respond J Q t) sweep s).state.world).kernel path := fun path =>
    sweep_handled hbehind hkernel hpossible hresolved hclean
  obtain ⟨hk, hcalms⟩ := sweep_calms hbehind hkernel hpossible hresolved hclean
  obtain ⟨e, he, hkey, hmechanism, hpath⟩ := descends_after e₁ he₁
  rcases hd₁ with ⟨hlisted, hfound⟩ | ⟨hdir, rfl⟩
  · obtain ⟨d, hd, hsame, hstatus, hdriver⟩ := listed_calms hkernel hpossible hk hcalms hlisted
    have hbefore : FoundFor e d ∨ DisabledBySweep J Q t s d₁.sysfsPath := by
      rcases hfound with hmatches | hstored
      · rw [hkey, matchesDevice_congr hsame] at hmatches
        exact .inl (.inl hmatches)
      · rw [← hstored]
        refine hpath.imp_left fun hkept => .inr ?_
        rw [← hkept, hstored, hsame.sysfsPath]
    rcases hbefore with hfound | hdisabled
    · rw [hsame.sysfsPath]
      exact hhandled _ (hclean.matched e he d (.inl ⟨hd, hfound⟩)
        (needsApply_mono hmechanism hstatus hdriver hneeds))
    · exact hhandled _ hdisabled
  · rcases hpath with hkept | hdisabled
    · rw [hkept] at hdir hneeds ⊢
      obtain ⟨hstatus, hdriver⟩ := deviceAt_calms hkernel hpossible hk hcalms hdir
      exact hhandled _ (hclean.matched e he (P.deviceAt (view s.world).kernel e.lastSysfsPath)
        (.inr ⟨hcalms.directory _ hdir, rfl⟩)
          (needsApply_mono hmechanism hstatus hdriver hneeds))
    · exact hhandled _ hdisabled

end First

def WrittenTo (F : Sysfs K) (P : Platform K) (sysfsRoot : Str) (Q : Platform W)
    (view : W → Attributed K) (s : State W) (e : DisabledDeviceEntry) (d : Device) : Prop :=
  needsApply e d = true ∧ Q.probeError s.world = none ∧ Allowed Q s d.sysfsPath ∧
    Writes F P sysfsRoot (view s.world).kernel d.sysfsPath

theorem reapplied_writtenTo (hbehind : Behind F P sysfsRoot Q view) {e : DisabledDeviceEntry}
    {d : Device} :
    (WrittenTo F P sysfsRoot Q view s e d →
      (reapplied F P sysfsRoot e d (view s.world)).asked.length =
        (view s.world).asked.length + 1) ∧
    (¬ WrittenTo F P sysfsRoot Q view s e d →
      reapplied F P sysfsRoot e d (view s.world) = view s.world) := by
  unfold WrittenTo Allowed
  rw [hbehind.probeError, hbehind.facts]
  exact ⟨reapplied_writes, reapplied_quiet⟩

theorem swept_cases {all : List Device} {e : DisabledDeviceEntry} (w : Attributed K) :
    swept F P sysfsRoot all e w = w ∨
      (swept F P sysfsRoot all e w).asked.length = w.asked.length + 1 := by
  unfold swept
  cases locatedIn P w.kernel all e with
  | none => exact .inl rfl
  | some d =>
    rw [Option.elim_some]
    by_cases hdue : needsApply e d = true ∧ P.probeError w.kernel = none ∧
        (evaluateDisable (P.facts w.kernel) d.sysfsPath).allowed = true ∧
        Writes F P sysfsRoot w.kernel d.sysfsPath
    · exact .inr (reapplied_writes hdue)
    · exact .inl (reapplied_quiet hdue)

theorem sweep_quiet (hbehind : Behind F P sysfsRoot Q view)
    (h : ∀ e ∈ s.entries, ∀ d, Located J Q t (present Q s) e s d →
      ¬ WrittenTo F P sysfsRoot Q view s e d) :
    view (run (respond J Q t) sweep s).state.world = view s.world := by
  rw [sameEnd_sweep.state]
  refine forEach_keeps (K := fun s' : State W => view s'.world = view s.world)
    (fun e s' hturn hs' => ?_) rfl
  rw [view_sweepEntry hbehind, hs', swept]
  cases hlocated : locatedIn P (view s.world).kernel (present Q s) e with
  | none => rfl
  | some d =>
    exact (reapplied_writtenTo hbehind).2 (h e hturn.mem d ((located_iff hbehind).mpr hlocated))

theorem not_writtenTo_of_asked (hbehind : Behind F P sysfsRoot Q view)
    (hends : (run (respond J Q t) sweep s).value = some ())
    (hasked : (view (run (respond J Q t) sweep s).state.world).asked = (view s.world).asked) :
    ∀ e ∈ s.entries, ∀ d, Located J Q t (present Q s) e s d →
    ¬ WrittenTo F P sysfsRoot Q view s e d := by
  rw [sameEnd_sweep.state] at hasked
  rw [sameEnd_sweep.value] at hends
  have hcases : ∀ e (s' : State W), swept F P sysfsRoot (present Q s) e
      (view s'.world) = view s'.world ∨
      (swept F P sysfsRoot (present Q s) e (view s'.world)).asked.length =
        (view s'.world).asked.length + 1 :=
    fun _ _ => swept_cases _
  have hgrows : ∀ n e (s' : State W), n ≤ (view s'.world).asked.length →
      n ≤
        (view (run (respond J Q t) (sweepEntry (present Q s) e) s').state.world).asked.length := by
    intro n e s' hn
    rw [view_sweepEntry hbehind]
    rcases hcases e s' with hsame | hmore
    · rw [hsame]
      exact hn
    · omega
  -- the log is as long at the end as at the start, so no turn has added to it
  have hturns : ∀ e s', Turn (respond J Q t) (sweepEntry (present Q s)) s.entries s e s' →
      swept F P sysfsRoot (present Q s) e (view s'.world) = view s'.world := by
    intro e s' hturn
    have hbefore : (view s.world).asked.length ≤ (view s'.world).asked.length :=
      hturn.begins
        (K := fun s' : State W => (view s.world).asked.length ≤ (view s'.world).asked.length)
        (fun e s' _ => hgrows _ e s') le_rfl
    have hafter := hturn.lasts (K := fun s'' : State W =>
      (swept F P sysfsRoot (present Q s) e (view s'.world)).asked.length ≤
        (view s''.world).asked.length)
      (fun e s' _ => hgrows _ e s') (by rw [view_sweepEntry hbehind])
    rw [hasked] at hafter
    rcases hcases e s' with hsame | hmore
    · exact hsame
    · omega
  intro e he d hlocated hdue
  obtain ⟨s', hturn⟩ := exists_turn he (Option.isSome_iff_exists.mpr ⟨(), hends⟩)
  have hview : view s'.world = view s.world :=
    hturn.begins (K := fun s' : State W => view s'.world = view s.world) (fun e s' hturn hs' => by
      rw [view_sweepEntry hbehind, hturns e s' hturn, hs']) rfl
  have hsame := hturns e s' hturn
  rw [hview, swept, (located_iff hbehind).mp hlocated, Option.elim_some] at hsame
  have hmore := (reapplied_writtenTo hbehind).1 hdue
  rw [hsame] at hmore
  omega

theorem view_onHotplug (hbehind : Behind F P sysfsRoot Q view) (d : Device) :
    view (run (respond J Q t) (onHotplug ⟨.changed, d⟩) s).state.world =
      (StateStore.findFor d s.entries).elim (view s.world) fun e =>
        reapplied F P sysfsRoot e d (view s.world) := by
  have hcall : run (respond J Q t) (findFor d) s = ⟨[.findFor d],
      some (StateStore.findFor d s.entries), s⟩ := rfl
  rw [onHotplug, if_neg (show HotplugEvent.Action.changed ≠ .removed by decide), run_bind, hcall]
  simp only [Ran.andThen]
  cases StateStore.findFor d s.entries with
  | none => rfl
  | some e => exact view_maybeReapply hbehind

def LetGo (Q : Platform W) (s : State W) (d : Device) : Prop :=
  Q.probeError s.world = none ∧ Allowed Q s d.sysfsPath

/-- After a sweep that met no error the next one, and any change event, writes to nothing exactly
where the devices it looks at are recognised. A sweep that an exception cuts short may write to
nothing besides. -/
theorem enforcement_idempotent_iff (t' : Thread) (hbehind : Behind F P sysfsRoot Q view)
    (hkernel : Kernel F P sysfsRoot Possible) (hpossible : Possible (view s.world).kernel)
    (hproduced : ∀ e ∈ s.entries, ∃ entries, Produced J P Q view t Possible entries ∧
      e ∈ entries)
    (hclean : Clean J P Q view t s) :
    let s₁ := (run (respond J Q t) sweep s).state
    let again := run (respond J Q t) sweep s₁
    let recognised := ∀ e ∈ s₁.entries, ∀ d, Located J Q t (present Q s₁) e s₁ d →
        LetGo Q s₁ d →
      Recognised P (view s₁.world).kernel e d
    (recognised → (view again.state.world).asked = (view s₁.world).asked) ∧
    (again.value = some () → (view again.state.world).asked = (view s₁.world).asked →
      recognised) ∧
    ∀ d ∈ present Q s₁,
      (view (run (respond J Q t') (onHotplug ⟨.changed, d⟩) s₁).state.world).asked =
        (view s₁.world).asked ↔
        ∀ e, StateStore.findFor d s₁.entries = some e → LetGo Q s₁ d →
        Recognised P (view s₁.world).kernel e d := by
  intro s₁ again recognised
  have hresolved : ∀ e ∈ s.entries, Resolved P Possible e := by
    intro e he
    obtain ⟨entries, hentries, hmem⟩ := hproduced e he
    exact hentries.resolved hbehind e hmem
  have hk₁ : Possible (view s₁.world).kernel :=
    (sweep_calms hbehind hkernel hpossible hresolved hclean).1
  have hwritten : ∀ e ∈ s₁.entries, ∀ d, Matched P (view s₁.world).kernel e d →
      (¬ WrittenTo F P sysfsRoot Q view s₁ e d ↔
        (LetGo Q s₁ d → Recognised P (view s₁.world).kernel e d)) := by
    intro e he d hd
    rw [← recognised_iff hkernel hk₁ hd
      (matched_handled hbehind hkernel hpossible hresolved hclean he hd)]
    unfold WrittenTo LetGo
    tauto
  have hlocated : ∀ e d, Located J Q t (present Q s₁) e s₁ d →
      Matched P (view s₁.world).kernel e d := by
    intro e d h
    rw [located_iff hbehind, present_view hbehind] at h
    exact locatedIn_cases h
  refine ⟨fun h => ?_, fun hends hasked e he d hd => ?_, fun d hd => ?_⟩
  · exact congrArg Attributed.asked (sweep_quiet hbehind fun e he d hd =>
      (hwritten e he d (hlocated e d hd)).mpr (h e he d hd))
  · exact (hwritten e he d (hlocated e d hd)).mp
      (not_writtenTo_of_asked hbehind hends hasked e he d hd)
  · rw [view_onHotplug hbehind]
    cases hfind : StateStore.findFor d s₁.entries with
    | none => exact iff_of_true rfl nofun
    | some e =>
      have hmatched : Matched P (view s₁.world).kernel e d := by
        have hfound := List.find?_some hfind
        exact .inl ⟨present_view hbehind ▸ hd, of_decide_eq_true hfound⟩
      have he : e ∈ s₁.entries := List.mem_of_find?_eq_some hfind
      rw [Option.elim_some]
      simp only [Option.some.injEq, forall_eq']
      rw [← hwritten e he d hmatched]
      refine ⟨fun hasked hdue => ?_,
        fun hnot => congrArg _ ((reapplied_writtenTo hbehind).2 hnot)⟩
      have hmore := (reapplied_writtenTo hbehind).1 hdue
      rw [hasked] at hmore
      omega

end Sweep

namespace Port
open Linux.Port

def Plain (w : Port) : Prop := ∀ driver, w.driver = some driver →
    driver ≠ [] ∧ 47 ∉ driver

theorem lastSegment_child {dir name : Str} (h : 47 ∉ name) :
    lastSegment (child dir name) = name := by
  unfold lastSegment child
  rw [List.reverse_append, List.reverse_cons, List.append_assoc, List.takeWhile_append_of_pos]
  · simp
  · intro c hc
    exact decide_eq_true fun hslash => h (List.mem_reverse.mp (hslash ▸ hc))

theorem child_path {dir name name' : Str} (hname : ¬ 47 :: name <:+ 47 :: name')
    (hname' : ¬ 47 :: name' <:+ 47 :: name) : child dir name ≠ child path name' := by
  intro h
  have hsuffix : 47 :: name <:+ child path name' := h ▸ List.suffix_append ..
  rcases List.suffix_or_suffix_of_suffix hsuffix (List.suffix_append path (47 :: name')) with
    hs | hs
  · exact hname hs
  · exact hname' hs

theorem isDirectory_path (w : Port) : platform.isDirectory w path = true :=
  decide_eq_true (show path = str "/sys" ∨ path = path ∨ path = w.busPath from .inr (.inl rfl))

theorem isDirectory_cases {w : Port} {dir : Str} (h : platform.isDirectory w dir = true) :
    dir = path ∨ dir ≠ path ∧ (dir = str "/sys" ∨ dir = w.busPath) := by
  change decide (dir = str "/sys" ∨ dir = path ∨ dir = w.busPath) = true at h
  rcases of_decide_eq_true h with rfl | rfl | rfl
  · exact .inr ⟨by decide, .inl rfl⟩
  · exact .inl rfl
  · refine .inr ⟨?_, .inr rfl⟩
    unfold busPath
    cases w.bus <;> decide

theorem child_inj {dir name : Str} : child dir name = child path name ↔ dir = path :=
  List.append_left_inj _

theorem pathExists_authorized {w : Port} {dir : Str} :
    platform.pathExists w (authorizedOf dir) = true ↔
    dir = path ∧ w.authorized.isSome = true := by
  have hoverride : authorizedOf dir ≠ overrideOf path := child_path (by decide) (by decide)
  have hdriver : authorizedOf dir ≠ child path (str "driver") :=
    child_path (by decide) (by decide)
  have hsame : authorizedOf dir = authorizedOf path ↔ dir = path := child_inj
  simp [platform, hoverride, hdriver, hsame]

theorem boundDriverName_port {w : Port} {dir : Str} : boundDriverName sysfs w dir =
    if dir = path then w.driver.map fun driver => lastSegment (w.driverPath driver) else none := by
  have hsame : child dir (str "driver") = child path (str "driver") ↔ dir = path := child_inj
  unfold boundDriverName
  simp only [sysfs, hsame]
  split_ifs
  · rw [Option.map_map]
    rfl
  · rfl

theorem driver_plain {w : Port} (h : Plain w) :
    (w.driver.map fun driver => lastSegment (w.driverPath driver)) = w.driver := by
  cases hdriver : w.driver with
  | none => rfl
  | some driver =>
    rw [Option.map_some, driverPath, lastSegment_child (h driver hdriver).2]

theorem firstLine_other {w : Port} {dir name : Str}
    (hname : ¬ 47 :: name <:+ 47 :: str "authorized")
    (hname' : ¬ 47 :: str "authorized" <:+ 47 :: name) : platform.firstLine w
      (child dir name) = [] :=
  if_neg (child_path hname hname')

theorem firstLine_authorized {w : Port} {dir : Str} :
    platform.firstLine w (authorizedOf dir) = if dir = path then w.authorized.getD [] else [] := by
  have hsame : authorizedOf dir = authorizedOf path ↔ dir = path := child_inj
  simp only [platform, hsame]

theorem weaklyCanonical_subsystem {w : Port} {dir : Str} :
    platform.weaklyCanonical w (child dir (str "subsystem")) =
      some (if dir = path then w.busPath else child dir (str "subsystem")) := by
  have hdriver : child dir (str "subsystem") ≠ child path (str "driver") :=
    child_path (by decide) (by decide)
  have hsame : child dir (str "subsystem") = child path (str "subsystem") ↔
      dir = path := child_inj
  simp only [platform, hsame, if_neg hdriver]
  split_ifs <;> rfl

theorem weaklyCanonical_directory {w w' : Port} {dir : Str}
    (h : platform.isDirectory w dir = true) :
    platform.weaklyCanonical w' dir = some dir := by
  have hne : dir ≠ child path (str "subsystem") ∧ dir ≠ child path (str "driver") := by
    rcases isDirectory_cases h with rfl | ⟨_, rfl | rfl⟩
    · exact ⟨by decide, by decide⟩
    · exact ⟨by decide, by decide⟩
    · unfold busPath
      cases w.bus <;> exact ⟨by decide, by decide⟩
  simp only [platform, if_neg hne.1, if_neg hne.2]

structure Calmer (w w' : Port) : Prop where
  bus : w'.bus = w.bus
  authorized : w'.authorized = w.authorized ∨ w.authorized.isSome = true ∧
      w'.authorized = some (str "0")
  driver : w'.driver = w.driver ∨ w'.driver = none

theorem Calmer.plain {w w' : Port} (h : Calmer w w') (hw : Plain w) : Plain w' := by
  rcases h.driver with heq | hnone
  · rw [Plain, heq]
    exact hw
  · rw [Plain, hnone]
    exact nofun

theorem Calmer.calms {w w' : Port} (h : Calmer w w') : Calms sysfs platform (str "/sys") w w' where
  root := rfl
  listed d' hd' := by
    obtain rfl : d' = w'.device := List.mem_singleton.mp hd'
    exact ⟨w.device, List.mem_singleton.mpr rfl, h.bus, rfl, rfl, rfl, rfl⟩
  directory dir hdir := by
    have hbus : w'.busPath = w.busPath := by rw [busPath, h.bus, busPath]
    simpa only [platform, hbus] using hdir
  remains dir hdir := by
    have hbus : w'.busPath = w.busPath := by rw [busPath, h.bus, busPath]
    have hisSome : w'.authorized.isSome = w.authorized.isSome := by
      rcases h.authorized with heq | ⟨hsome, hzero⟩
      · rw [heq]
      · rw [hzero, hsome]
        rfl
    refine ⟨⟨?_, ?_, fun name hname => ?_⟩, ?_, ?_, fun hnone => ?_⟩
    · simp only [platform, hbus]
    · rw [weaklyCanonical_subsystem, weaklyCanonical_subsystem, hbus]
    · simp only [Platform.identityAttributes, List.mem_cons, List.not_mem_nil, or_false] at hname
      rcases hname with rfl | rfl | rfl | rfl | rfl
      all_goals rw [firstLine_other (by decide) (by decide),
        firstLine_other (by decide) (by decide)]
    · rw [Bool.eq_iff_iff, pathExists_authorized, pathExists_authorized, hisSome]
    · rw [firstLine_authorized, firstLine_authorized]
      split_ifs
      · rcases h.authorized with heq | ⟨_, hzero⟩
        · exact .inl (by rw [heq])
        · exact .inr (by rw [hzero]; rfl)
      · exact .inl rfl
    · rw [boundDriverName_port] at hnone ⊢
      split_ifs at hnone ⊢
      · rcases h.driver with heq | hgone
        · rw [heq, Option.map_eq_none_iff]
          exact Option.map_eq_none_iff.mp hnone
        · rw [hgone]
          rfl
      · rfl

def reported (w : Port) : UdevDevice where
  subsystem := some (keyBusString w.bus)
  syspath := some path
  sysname := none
  driver := w.driver
  properties := .ofList [(str "ID_MODEL_ID", str "15f3"), (str "ID_VENDOR_ID", str "8086")]
  attributes := .ofList (w.authorized.toList.map fun value => (str "authorized", value))
  parent := none

theorem reported_authorized (w : Port) :
    ((reported w).attr "authorized").getD [] = w.authorized.getD [] := by
  unfold UdevNode.attr reported
  cases w.authorized with
  | none => rfl
  | some value => simp

theorem mapDevice_reported (w : Port) : (mapDevice (reported w)).toDevice = w.device := by
  have hbus : busFor (keyBusString w.bus) = w.bus := by
    cases w.bus <;> rfl
  have hzero : w.authorized.getD [] = str "0" ↔ w.authorized = some (str "0") := by
    cases w.authorized with
    | none => exact iff_of_false (by decide) (by simp)
    | some value => simp
  unfold mapDevice device
  simp only [reported_authorized, hzero]
  congr 1
  rw [show (reported w).subsystem.getD [] = keyBusString w.bus from rfl, hbus]

theorem kernel_port : Kernel sysfs platform (str "/sys") Plain where
  canonical _ _ _ hdir := weaklyCanonical_directory hdir
  link := by
    intro w dir hplain hdir
    have hexists : platform.pathExists w (child dir (str "driver")) = true ↔
        dir = path ∧ w.driver.isSome = true := by
      have hauthorized : child dir (str "driver") ≠ authorizedOf path :=
        child_path (by decide) (by decide)
      have hoverride : child dir (str "driver") ≠ overrideOf path :=
        child_path (by decide) (by decide)
      have hsame : child dir (str "driver") = child path (str "driver") ↔ dir = path := child_inj
      simp [platform, hauthorized, hoverride, hsame]
    rw [boundDriverName_port, driver_plain hplain, Platform.driverAt]
    by_cases hpath : dir = path
    · rw [if_pos hpath]
      cases hbound : w.driver with
      | none => simp [hexists, hbound]
      | some driver =>
        obtain ⟨hne, hname⟩ := hplain driver hbound
        have htarget : (platform.weaklyCanonical w (child dir (str "driver"))).elim
            [] lastSegment = driver := by
          have hlink : platform.weaklyCanonical w (child dir (str "driver")) =
              some (w.driverPath driver) := by
            have hne : child path (str "driver") ≠ child path (str "subsystem") := by decide
            rw [hpath]
            simp only [platform, if_neg hne, if_pos, hbound, Option.map_some, Option.getD_some]
          rw [hlink, Option.elim_some, driverPath, lastSegment_child hname]
        rw [htarget]
        exact if_pos ⟨hexists.mpr ⟨hpath, by rw [hbound]; rfl⟩, hne⟩
    · simp [hexists, hpath]
  udev hplain hd := by
    rename_i w d
    obtain rfl : d = w.device := List.mem_singleton.mp hd
    refine ⟨reported w, (mapDevice_reported w).symm, isDirectory_path w, rfl, ?_, ?_⟩
    · rw [reported_authorized]
      exact (firstLine_authorized.trans (if_pos rfl)).symm
    · rw [boundDriverName_port]
      exact ((if_pos rfl).trans (driver_plain hplain)).symm
  deauthorize := by
    intro w w' dir hplain hattribute hwrite
    obtain ⟨rfl, hsome⟩ := pathExists_authorized.mp hattribute
    obtain rfl : { w with authorized := some (str "0") } = w' := (Prod.mk.inj hwrite).2
    have hcalmer : Calmer w { w with authorized := some (str "0") } :=
      ⟨rfl, .inr ⟨hsome, rfl⟩, .inl rfl⟩
    exact ⟨hcalmer.plain hplain, hcalmer.calms, rfl⟩
  unbind := by
    intro w w' dir bus driver hplain _ _ hdriver hwrite
    obtain rfl := write_unbind hwrite
    have hcalmer : Calmer w { w with driver := none } := ⟨rfl, .inl rfl, .inr rfl⟩
    refine ⟨hcalmer.plain hplain, hcalmer.calms, ?_⟩
    rw [boundDriverName_port]
    split_ifs <;> rfl

def disabledAt (w : Port) : State (Attributed Port) :=
  (run (respond Json.reference switched .bus) (applyDisable path).run (idle w [])).state

abbrev pluggedAgain (w : Port) : State (Attributed Port) := idle w (disabledAt w).entries

abbrev sweptOnce (w : Port) : State (Attributed Port) :=
  (run (respond Json.reference switched .bus) sweep (pluggedAgain w)).state

theorem produced_disabledAt {w : Port} (hplain : Plain w)
    (hok : (run (respond Json.reference switched .bus) (applyDisable path).run (idle w [])).value =
      some (.ok ())) :
    Produced Json.reference platform switched id .bus Plain (disabledAt w).entries := by
  have hlink : platform.weaklyCanonical (id (idle w []).world : Attributed Port).kernel path =
      some path := rfl
  exact .disabled .start hplain hlink (isDirectory_path w) hok

theorem located_stored {w : Port} {e : DisabledDeviceEntry} (hpath : e.lastSysfsPath = path) :
    Located Json.reference switched .bus [w.device] e (idle w [e]) w.device := by
  refine located_of_find ?_
  have hfound : FoundFor e w.device := .inr hpath
  rw [List.find?_cons_of_pos (by simpa using hfound)]

theorem allowed_port (s : State (Attributed Port)) : Allowed switched s path := by
  change (evaluateDisable ⟨[], [], [], []⟩ path).allowed = true
  decide

theorem clean_single {w : Port} {e : DisabledDeviceEntry} {applied : Option Str}
    (hpath : e.lastSysfsPath = path) (hneeds : needsApply e w.device = true)
    (hok : (switched.setEnabled ⟨w, []⟩ path false []).1 = .ok applied) :
    Clean Json.reference platform switched id .bus (idle w [e]) where
  applied x s' d hturn hlocated _ := by
    rcases hturn with _ | ⟨_, hnone⟩
    · obtain rfl := located_unique hlocated (located_stored hpath)
      exact ⟨rfl, allowed_port _, applied, hok⟩
    · exact absurd hnone.mem List.not_mem_nil
  matched e' he' d hd _ := by
    obtain rfl : e' = e := List.mem_singleton.mp he'
    have hdevice : d.sysfsPath = path := by
      rcases hd with ⟨hlisted, _⟩ | ⟨_, rfl⟩
      · obtain rfl : d = w.device := List.mem_singleton.mp hlisted
        rfl
      · exact hpath
    obtain ⟨behalf, hint, hissued⟩ := (enforces_sweepEntry.disables_iff rfl).mpr
      ⟨w.device, located_stored hpath, hneeds, allowed_port _, rfl⟩
    rw [hdevice]
    exact ⟨behalf, hint, (mem_issued_present _ id).mpr ⟨e', _, .now .., hissued⟩⟩

def mouseUsb : Port := ⟨.usb, some (str "1"), some (str "usb"), []⟩

def tunnelled : Port := ⟨.pci, some (str "1"), some (str "igc"), []⟩

theorem mouse_left_alone : (sweptOnce mouseUsb).world.asked = [(authorizedOf path, str "0")] ∧
    (run (respond Json.reference switched .bus) sweep (sweptOnce mouseUsb)).state.world.asked =
      (sweptOnce mouseUsb).world.asked := by
  have hplain : Plain mouseUsb := by
    intro driver hdriver
    obtain rfl := Option.some.inj hdriver
    decide
  obtain ⟨e, hentries, hpath, hneeds⟩ : ∃ e, (disabledAt mouseUsb).entries = [e] ∧
    e.lastSysfsPath = path ∧
      needsApply e mouseUsb.device = true := ⟨_, rfl, rfl, rfl⟩
  have hclean : Clean Json.reference platform switched id .bus (pluggedAgain mouseUsb) := by
    rw [pluggedAgain, hentries]
    exact clean_single hpath hneeds rfl
  have hpossible : Plain (id (pluggedAgain mouseUsb).world : Attributed Port).kernel := hplain
  have hiff := enforcement_idempotent_iff .monitor behind_switched kernel_port hpossible
    (fun e he => ⟨_, produced_disabledAt hplain rfl, he⟩) hclean
  have husb : ∀ e ∈ (sweptOnce mouseUsb).entries, e.mechanism = str "authorized" ∧
      (locatedIn platform (sweptOnce mouseUsb).world.kernel
        (present switched (sweptOnce mouseUsb)) e).all
        (fun d => d.bus = .usb) = true := by decide
  refine ⟨by rfl, hiff.1 fun e he d hlocated _ _ => ?_⟩
  obtain ⟨hmechanism, hbus⟩ := husb e he
  have hfound : locatedIn platform (sweptOnce mouseUsb).world.kernel
      (present switched (sweptOnce mouseUsb)) e =
      some d := (located_iff behind_switched).mp hlocated
  rw [hfound, Option.all_some] at hbus
  rw [if_pos hmechanism]
  exact of_decide_eq_true hbus

theorem tunnelled_written_again :
    Produced Json.reference platform switched id .bus Plain (pluggedAgain tunnelled).entries ∧
    Clean Json.reference platform switched id .bus (pluggedAgain tunnelled) ∧
    (run (respond Json.reference switched .bus) sweep (sweptOnce tunnelled)).state.world.asked =
      (sweptOnce tunnelled).world.asked ++ [(authorizedOf path, str "0")] ∧
    ∃ d ∈ present switched (sweptOnce tunnelled),
      (run (respond Json.reference switched .monitor) (onHotplug ⟨.changed, d⟩)
        (sweptOnce tunnelled)).state.world.asked =
        (sweptOnce tunnelled).world.asked ++ [(authorizedOf path, str "0")] := by
  have hplain : Plain tunnelled := by
    intro driver hdriver
    obtain rfl := Option.some.inj hdriver
    decide
  obtain ⟨e, hentries, hpath, hneeds⟩ : ∃ e, (disabledAt tunnelled).entries = [e] ∧
    e.lastSysfsPath = path ∧
      needsApply e tunnelled.device = true := ⟨_, rfl, rfl, rfl⟩
  refine ⟨produced_disabledAt hplain rfl, ?_, by rfl, _, List.mem_singleton_self _, by rfl⟩
  rw [pluggedAgain, hentries]
  exact clean_single hpath hneeds rfl

end Port

end DevMgr.Daemon
