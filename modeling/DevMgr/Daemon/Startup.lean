import DevMgr.Daemon.EnforcementCoverage
import DevMgr.Daemon.SysfsIdentity
import Mathlib.Logic.Relation

/-!
# Startup

The daemon enumerates, re-applies its entries one after the other and then starts
the monitor, which hands on the events from there. Devices come and go at any
point of this.
-/

open DevMgr.Core

namespace DevMgr.Daemon
open Bytes Program Relation

variable {W : Type}

structure Plugged (P : Platform W) (w : W) (device : Device) : Prop where
  directory : P.isDirectory w device.sysfsPath = true
  identity : SameIdentity (P.identityAt w device.sysfsPath) device

instance (P : Platform W) (w : W) (device : Device) : Decidable (Plugged P w device) :=
  decidable_of_iff (P.isDirectory w device.sysfsPath = true ∧
      SameIdentity (P.identityAt w device.sysfsPath) device)
    ⟨fun h => ⟨h.1, h.2⟩, fun h => ⟨h.directory, h.identity⟩⟩

def Listed (entries : List DisabledDeviceEntry) (device : Device) : Prop :=
  ∃ entry ∈ entries, matchesDevice entry.key device = true

variable {P : Platform W} {device : Device}

theorem Plugged.congr {w : W} {device' : Device} (h : Plugged P w device)
    (hsame : SameIdentity device device') : Plugged P w device' := by
  refine ⟨?_, ?_⟩
  · rw [hsame.sysfsPath]
    exact h.directory
  · rw [hsame.sysfsPath]
    exact h.identity.trans hsame

theorem Listed.congr_keys {entries entries' : List DisabledDeviceEntry}
    (hkeys : entries'.map (·.key) = entries.map (·.key)) :
    Listed entries' device ↔ Listed entries device := by
  have hmap : ∀ l : List DisabledDeviceEntry,
      Listed l device ↔ ∃ key ∈ l.map (·.key), matchesDevice key device = true := fun l => by
    simp [Listed]
  rw [hmap, hmap, hkeys]

inductive Phase where
  | starting
  | sweeping (all : List Device) (left : List DisabledDeviceEntry)
  | watching

/-- The events are those the monitor's socket holds. Of the devices that `maybeReapply` was called
for, `handed` keeps those that have been plugged in since. -/
structure Startup (W : Type) where
  daemon : State W
  phase : Phase
  applying : Option (DisabledDeviceEntry × Device)
  events : List HotplugEvent
  handed : List Device

namespace Startup

def start (daemon : State W) : Startup W := ⟨daemon, .starting, none, [], []⟩

/-- The sweep runs on the thread that serves the bus later. -/
def thread (s : Startup W) : Thread :=
  match s.phase with
  | .watching => .monitor
  | _ => .bus

def Handed (s : Startup W) (device : Device) : Prop := ∃ h ∈ s.handed, SameIdentity h device

def Quiet (s : Startup W) : Prop := s.phase = .watching ∧ s.applying = none ∧ s.events = []

section Step
variable (J : Json.Codec) (P : Platform W)

def hand (s : Startup W) (entry : DisabledDeviceEntry) (device : Device) : Startup W :=
  { s with
    applying := some (entry, device)
    handed := (device :: s.handed).filter fun d => Plugged P s.daemon.world d }

def handFound (s : Startup W) (entry : DisabledDeviceEntry) : Option Device → Startup W
  | none => s
  | some device => s.hand P entry device

def receive (s : Startup W) (event : HotplugEvent) : Startup W :=
  if event.action = .removed then s
  else match StateStore.findFor event.device s.daemon.entries with
    | none => s
    | some entry => s.hand P entry event.device

def moved (s : Startup W) (daemon : State W) (events : List HotplugEvent) : Startup W :=
  { s with
    daemon
    events := s.events ++ events
    handed := s.handed.filter fun d => Plugged P daemon.world d }

def Announces (s : Startup W) (w : W) (events : List HotplugEvent) : Prop :=
  match s.phase with
  | .watching => ∀ device, Plugged P w device → ¬ Plugged P s.daemon.world device →
      ∃ event ∈ events, event.action ≠ .removed ∧ SameIdentity event.device device
  | _ => events = []

inductive Step : Startup W → Startup W → Prop
  | enumerate {s all} (hphase : s.phase = .starting)
      (hall : (run (respond J P s.thread) enumerated s.daemon).value = some all) :
      Step s { s with phase := .sweeping all s.daemon.entries }
  | turn {s all entry left found} (hphase : s.phase = .sweeping all (entry :: left))
      (hidle : s.applying = none)
      (hfound : (run (respond J P s.thread) (locate all entry) s.daemon).value = some found) :
      Step s (handFound P { s with phase := .sweeping all left } entry found)
  | apply {s entry device events} (happlying : s.applying = some (entry, device))
      (hdone : (run (respond J P s.thread) (maybeReapply entry device) s.daemon).value = some ())
      (hevents : s.Announces P
        (run (respond J P s.thread) (maybeReapply entry device) s.daemon).state.world events) :
      Step s (moved P { s with applying := none }
        (run (respond J P s.thread) (maybeReapply entry device) s.daemon).state events)
  | watch {s all} (hphase : s.phase = .sweeping all []) (hidle : s.applying = none) :
      Step s { s with phase := .watching }
  | deliver {s event events} (hphase : s.phase = .watching) (hidle : s.applying = none)
      (hevents : s.events = event :: events) :
      Step s (receive P { s with events := events } event)
  | machine {s w events} (hevents : s.Announces P w events) :
      Step s (s.moved P { s.daemon with world := w } events)

end Step

/-- The turn of the entry comes to the device: the enumeration has it first for the entry, or has
none for it and sysfs shows the device at the stored path. -/
def Reaches (all : List Device) (entry : DisabledDeviceEntry) (device : Device) : Prop :=
  match all.find? fun d => FoundFor entry d with
  | some found => SameIdentity found device
  | none => entry.lastSysfsPath = device.sysfsPath ∧ entry.lastSysfsPath ≠ []

/-- The devices that are there at the enumeration and those plugged in during the sweep are reached
by a turn to come, as far as entries are there for them. -/
def Timely (P : Platform W) (s s' : Startup W) : Prop :=
  ∀ all left, s'.phase = .sweeping all left → ∀ device, Listed s.daemon.entries device →
    Plugged P s'.daemon.world device →
      s.phase = .starting ∨ ¬ Plugged P s.daemon.world device →
      ∃ entry ∈ left, Reaches all entry device

variable {J : Json.Codec} {s s' : Startup W}

theorem handed_hand {entry : DisabledDeviceEntry} {found : Device}
    (hplugged : Plugged P s.daemon.world device) (hsame : SameIdentity found device) :
    (s.hand P entry found).Handed device := by
  refine ⟨found, List.mem_filter.mpr ⟨List.mem_cons_self, ?_⟩, hsame⟩
  exact decide_eq_true (hplugged.congr hsame.symm)

theorem Handed.hand {entry : DisabledDeviceEntry} {found : Device} (h : s.Handed device)
    (hplugged : Plugged P s.daemon.world device) : (s.hand P entry found).Handed device := by
  obtain ⟨d, hd, hsame⟩ := h
  refine ⟨d, List.mem_filter.mpr ⟨List.mem_cons_of_mem _ hd, ?_⟩, hsame⟩
  exact decide_eq_true (hplugged.congr hsame.symm)

theorem Handed.handFound {entry : DisabledDeviceEntry} {found : Option Device} (h : s.Handed device)
    (hplugged : Plugged P s.daemon.world device) : (s.handFound P entry found).Handed device := by
  cases found with
  | none => exact h
  | some found => exact h.hand hplugged

theorem Handed.moved {daemon : State W} {events : List HotplugEvent} (h : s.Handed device)
    (hplugged : Plugged P daemon.world device) : (s.moved P daemon events).Handed device := by
  obtain ⟨d, hd, hsame⟩ := h
  refine ⟨d, List.mem_filter.mpr ⟨hd, ?_⟩, hsame⟩
  exact decide_eq_true (hplugged.congr hsame.symm)

theorem located_of_reaches {t : Thread} {all : List Device} {entry : DisabledDeviceEntry}
    {found : Option Device} {s : State W} (hreaches : Reaches all entry device)
    (hplugged : Plugged P s.world device)
    (hfound : (run (respond J P t) (locate all entry) s).value = some found) :
    ∃ d, found = some d ∧ SameIdentity d device := by
  unfold Reaches at hreaches
  cases hfind : all.find? fun d => FoundFor entry d with
  | some d =>
    rw [hfind] at hreaches
    have hlocated : Located J P t all entry s d := located_of_find hfind
    exact ⟨d, Option.some.inj (hfound.symm.trans hlocated), hreaches⟩
  | none =>
    rw [hfind] at hreaches
    obtain ⟨hpath, hstored⟩ := hreaches
    have hleaves : Leaves (respond J P t) (locate all entry) s fun found _ =>
        ∃ d, found = some d ∧ SameIdentity d device := by
      have hdirectory : P.isDirectory s.world entry.lastSysfsPath = true :=
        hpath ▸ hplugged.directory
      unfold locate
      rw [hfind]
      dsimp only
      rw [if_neg hstored]
      refine leaves_bind.mpr (leaves_call.mpr ?_)
      have hidentity : SameIdentity (P.identityAt s.world entry.lastSysfsPath) device :=
        hpath ▸ hplugged.identity
      split_ifs with hpresent
      · refine leaves_bind.mpr
          (leaves_deviceFromSysfs.mono fun d _ h => leaves_pure.mpr ⟨d, rfl, ?_⟩)
        exact h.2.symm.trans hidentity
      · exact absurd hdirectory hpresent
    exact hleaves found hfound

def Due (phase : Phase) (events : List HotplugEvent) (device : Device) : Prop :=
  match phase with
  | .starting => True
  | .sweeping all left => ∃ entry ∈ left, Reaches all entry device
  | .watching => ∃ event ∈ events, event.action ≠ .removed ∧
      SameIdentity event.device device

def Safe (P : Platform W) (s : Startup W) : Prop :=
  ∀ device, Listed s.daemon.entries device → Plugged P s.daemon.world device →
    Due s.phase s.events device ∨ s.Handed device

theorem Due.append {phase : Phase} {events : List HotplugEvent} (h : Due phase events device)
    (more : List HotplugEvent) : Due phase (events ++ more) device := by
  cases phase with
  | starting => trivial
  | sweeping all left => exact h
  | watching =>
    obtain ⟨event, hevent, hrest⟩ := h
    exact ⟨event, List.mem_append_left _ hevent, hrest⟩

theorem due_arrived {daemon : State W} {events : List HotplugEvent}
    (hrecorded : Listed s.daemon.entries device) (hplugged : Plugged P daemon.world device)
    (harrived : ¬ Plugged P s.daemon.world device) (hevents : s.Announces P daemon.world events)
    (htimely : Timely P s (s.moved P daemon events)) : Due s.phase (s.events ++ events) device := by
  unfold Announces at hevents
  cases hphase : s.phase with
  | starting => trivial
  | sweeping all left => exact htimely all left hphase device hrecorded hplugged (.inr harrived)
  | watching =>
    rw [hphase] at hevents
    obtain ⟨event, hevent, hrest⟩ := hevents device hplugged harrived
    exact ⟨event, List.mem_append_right _ hevent, hrest⟩

theorem safe_moved {daemon : State W} {events : List HotplugEvent} (h : s.Safe P)
    (hkeys : daemon.entries.map (·.key) = s.daemon.entries.map (·.key))
    (hevents : s.Announces P daemon.world events) (htimely : Timely P s (s.moved P daemon events)) :
    (s.moved P daemon events).Safe P := by
  intro device hrecorded hplugged
  have hbefore : Listed s.daemon.entries device := (Listed.congr_keys hkeys).mp hrecorded
  by_cases hthere : Plugged P s.daemon.world device
  · exact (h device hbefore hthere).imp (·.append events) (·.moved hplugged)
  · exact .inl (due_arrived hbefore hplugged hthere hevents htimely)

theorem safe_turn {all : List Device} {entry : DisabledDeviceEntry}
    {left : List DisabledDeviceEntry}
    {found : Option Device} (h : s.Safe P) (hphase : s.phase = .sweeping all (entry :: left))
    (hfound : (run (respond J P s.thread) (locate all entry) s.daemon).value = some found) :
    (handFound P { s with phase := .sweeping all left } entry found).Safe P := by
  intro device hrecorded hplugged
  have hdaemon : (handFound P { s with phase := .sweeping all left } entry found).daemon =
      s.daemon := by
    cases found <;> rfl
  have hphase' : (handFound P { s with phase := .sweeping all left } entry found).phase =
      .sweeping all left := by
    cases found <;> rfl
  rw [hdaemon] at hrecorded hplugged
  rw [hphase']
  rcases h device hrecorded hplugged with hdue | hhanded
  · rw [hphase] at hdue
    obtain ⟨e, he, hreaches⟩ := hdue
    rcases List.mem_cons.mp he with rfl | hleft
    · obtain ⟨d, rfl, hsame⟩ := located_of_reaches hreaches hplugged hfound
      exact .inr (handed_hand hplugged hsame)
    · exact .inl ⟨e, hleft, hreaches⟩
  · have hkept : Handed { s with phase := .sweeping all left } device := hhanded
    exact .inr (hkept.handFound hplugged)

theorem receive_cases (event : HotplugEvent) :
    s.receive P event = s ∧
      (event.action = .removed ∨ StateStore.findFor event.device s.daemon.entries = none) ∨
    ∃ entry, s.receive P event = s.hand P entry event.device := by
  unfold receive
  by_cases haction : event.action = .removed
  · exact .inl ⟨if_pos haction, .inl haction⟩
  · rw [if_neg haction]
    cases StateStore.findFor event.device s.daemon.entries with
    | none => exact .inl ⟨rfl, .inr rfl⟩
    | some entry => exact .inr ⟨entry, rfl⟩

theorem findFor_of_recorded {entries : List DisabledDeviceEntry} {device' : Device}
    (h : Listed entries device) (hsame : SameIdentity device' device) :
    StateStore.findFor device' entries ≠ none := by
  obtain ⟨entry, hentry, hmatches⟩ := h
  intro hnone
  have hmiss := List.find?_eq_none.mp hnone entry hentry
  rw [matchesDevice_congr hsame] at hmatches
  simp [hmatches] at hmiss

theorem safe_deliver {event : HotplugEvent} {events : List HotplugEvent} (h : s.Safe P)
    (hphase : s.phase = .watching) (hevents : s.events = event :: events) :
    (receive P { s with events := events } event).Safe P := by
  intro device
  rcases receive_cases (P := P) (s := { s with events := events }) event with
    ⟨hstays, hmiss⟩ | ⟨entry, hhand⟩
  · rw [hstays]
    refine fun hrecorded hplugged => (h device hrecorded hplugged).imp_left fun hdue => ?_
    rw [hphase, hevents] at hdue
    obtain ⟨e, he, hadded, hsame⟩ := hdue
    rw [hphase]
    rcases List.mem_cons.mp he with rfl | hlater
    · rcases hmiss with hremoved | hnone
      · exact absurd hremoved hadded
      · exact absurd hnone (findFor_of_recorded hrecorded hsame)
    · exact ⟨e, hlater, hadded, hsame⟩
  · rw [hhand]
    intro hrecorded hplugged
    rcases h device hrecorded hplugged with hdue | hhanded
    · rw [hphase, hevents] at hdue
      obtain ⟨e, he, hadded, hsame⟩ := hdue
      rcases List.mem_cons.mp he with rfl | hlater
      · exact .inr (handed_hand hplugged hsame)
      · refine .inl ?_
        change Due s.phase events device
        rw [hphase]
        exact ⟨e, hlater, hadded, hsame⟩
    · have hkept : Handed { s with events := events } device := hhanded
      exact .inr (hkept.hand hplugged)

theorem keys_maybeReapply {t : Thread} (entry : DisabledDeviceEntry)
    (device : Device) (s : State W) :
    (run (respond J P t) (maybeReapply entry device) s).state.entries.map (·.key) =
      s.entries.map (·.key) :=
  keys_of_only
    (only_maybeReapply (keepsKeys_of_reads (.inr (.inl rfl))) (fun _ => rfl) (fun _ => rfl)
    (fun _ _ _ => rfl) (fun _ _ _ => updateEntry_map J P fun _ => rfl)
    (fun _ _ _ => updateEntry_map J P fun _ => rfl) entry device) s

theorem safe_step (h : s.Safe P) (hstep : Step J P s s') (htimely : Timely P s s') : s'.Safe P := by
  cases hstep with
  | enumerate hphase hall =>
    intro device hrecorded hplugged
    exact .inl (htimely _ _ rfl device hrecorded hplugged (.inl hphase))
  | turn hphase _ hfound => exact safe_turn h hphase hfound
  | @apply entry device events _ _ hevents =>
    have hkept : Safe P { s with applying := none } := h
    exact safe_moved hkept (keys_maybeReapply entry device s.daemon) hevents htimely
  | watch hphase _ =>
    intro device hrecorded hplugged
    refine (h device hrecorded hplugged).imp_left fun hdue => ?_
    rw [hphase] at hdue
    obtain ⟨_, hnone, _⟩ := hdue
    exact absurd hnone List.not_mem_nil
  | deliver hphase _ hevents => exact safe_deliver h hphase hevents
  | machine hevents => exact safe_moved h rfl hevents htimely

theorem safe_run {daemon : State W}
    (hrun : ReflTransGen (fun s s' => Step J P s s' ∧ Timely P s s') (start daemon) s) :
    s.Safe P := by
  induction hrun with
  | refl => exact fun _ _ _ => .inl trivial
  | tail _ hstep ih => exact safe_step ih hstep.1 hstep.2

/-- Every device that is there in the end and has an entry has been handed over since it was
plugged in. -/
theorem startup_covers {daemon : State W}
    (hrun : ReflTransGen (fun s s' => Step J P s s' ∧ Timely P s s') (start daemon) s)
    (hquiet : s.Quiet) (hrecorded : Listed s.daemon.entries device)
    (hplugged : Plugged P s.daemon.world device) : s.Handed device := by
  have hsafe : s.Safe P := safe_run hrun
  obtain ⟨hphase, _, hevents⟩ := hquiet
  refine (hsafe device hrecorded hplugged).resolve_left fun hdue => ?_
  rw [hphase, hevents] at hdue
  obtain ⟨_, hnone, _⟩ := hdue
  exact List.not_mem_nil hnone

theorem steps_turns {all : List Device} {left : List DisabledDeviceEntry}
    (hphase : s.phase = .sweeping all left) (hidle : s.applying = none) (hevents : s.events = [])
    (hdone : (run (respond J P .bus) (forEach left (sweepEntry all)) s.daemon).value = some ()) :
    ∃ handed, ReflTransGen (Step J P) s
      ⟨(run (respond J P .bus) (forEach left (sweepEntry all)) s.daemon).state, .sweeping all [],
        none, [], handed⟩ := by
  induction left generalizing s with
  | nil =>
    obtain ⟨daemon, phase, applying, events, handed⟩ := s
    cases hphase
    cases hidle
    cases hevents
    exact ⟨handed, .refl⟩
  | cons entry left ih =>
    have hthread : s.thread = .bus := by rw [thread, hphase]
    rw [forEach, run_bind_value] at hdone
    obtain ⟨_, hentry, hleft⟩ := hdone
    rw [forEach, run_bind_state _ hentry]
    rw [sweepEntry, run_bind_value] at hentry
    obtain ⟨found, hfound, happlied⟩ := hentry
    rw [sweepEntry, run_bind_state _ hfound, run_locate_state] at hleft ⊢
    rw [run_locate_state] at happlied
    have hturn : Step J P s _ := .turn hphase hidle (hthread ▸ hfound)
    cases found with
    | none =>
      obtain ⟨handed, hsteps⟩ :=
        ih (s := { s with phase := .sweeping all left }) rfl hidle hevents hleft
      exact ⟨handed, .head hturn hsteps⟩
    | some device =>
      let called : Startup W :=
        handFound P { s with phase := .sweeping all left } entry (some device)
      let next : Startup W := moved P { called with applying := none }
        (run (respond J P .bus) (maybeReapply entry device) s.daemon).state []
      have happly : Step J P called next := .apply rfl happlied rfl
      have hempty : next.events = [] := (List.append_nil _).trans hevents
      obtain ⟨handed, hsteps⟩ := ih (s := next) rfl rfl hempty hleft
      exact ⟨handed, .head hturn (.head happly hsteps)⟩

theorem steps_sweep {daemon : State W}
    (hdone : (run (respond J P .bus) sweep daemon).value = some ()) :
    ∃ handed, ReflTransGen (Step J P) (start daemon)
      ⟨(run (respond J P .bus) sweep daemon).state, .sweeping (present P daemon) [], none, [],
        handed⟩ := by
  have hall : (run (respond J P .bus) enumerated daemon).value = some (present P daemon) := by
    rw [run_enumerated]
  have hstate : (run (respond J P .bus) enumerated daemon).state = daemon := by
    rw [run_enumerated]
  rw [sweep, run_bind_state _ hall, hstate]
  rw [sweep, run_bind_value] at hdone
  obtain ⟨all, hvalue, hturns⟩ := hdone
  obtain rfl : present P daemon = all := Option.some.inj (hall.symm.trans hvalue)
  rw [hstate] at hturns
  have henumerate : Step J P (start daemon)
      { start daemon with phase := .sweeping (present P daemon) daemon.entries } :=
        .enumerate rfl hall
  obtain ⟨handed, hsteps⟩ := steps_turns
    (s := { start daemon with phase := .sweeping (present P daemon) daemon.entries })
      rfl rfl rfl hturns
  exact ⟨handed, .head henumerate hsteps⟩

theorem run_onHotplug {t : Thread} {event : HotplugEvent} (hidle : s.applying = none) :
    (run (respond J P t) (onHotplug event) s.daemon).state =
      match (s.receive P event).applying with
      | none => s.daemon
      | some (entry, device) =>
          (run (respond J P t) (maybeReapply entry device) s.daemon).state := by
  unfold onHotplug receive
  by_cases haction : event.action = .removed
  · rw [if_pos haction, if_pos haction, hidle]
    rfl
  · have hfound : (run (respond J P t) (findFor event.device) s.daemon).value =
        some (StateStore.findFor event.device s.daemon.entries) := rfl
    rw [if_neg haction, if_neg haction, run_bind_state _ hfound]
    cases StateStore.findFor event.device s.daemon.entries with
    | none =>
      dsimp only
      rw [hidle]
      rfl
    | some entry => rfl

section Runs
open Bench

def nothing : Bench := ⟨[], [], []⟩

def attachedLater : State Bench := idle keyboardAttached [keyboardEntry "1-4"]

def reapplied : Startup Bench :=
  moved usbPlatform ⟨attachedLater, .watching, none, [], [keyboard "1-4"]⟩
    (run (respond Json.reference usbPlatform .monitor) (maybeReapply (keyboardEntry "1-4")
      (keyboard "1-4")) attachedLater).state []

theorem directory_attached {path : Str} (h : usbPlatform.isDirectory keyboardAttached path = true) :
    path = str "/sys" ∨ path = (keyboard "1-4").sysfsPath := by
  change decide (path = str "/sys" ∨ [keyboard "1-4"].any (fun d => d.sysfsPath = path) = true) =
    true at h
  refine (of_decide_eq_true h).imp_right fun hdevice => ?_
  simpa [eq_comm] using hdevice

theorem plugged_nothing {d : Device} (h : Plugged usbPlatform nothing d) :
    d.sysfsPath = str "/sys" := by
  have hdirectory :
      decide (d.sysfsPath = str "/sys" ∨ [].any (fun e : Device => e.sysfsPath = d.sysfsPath) =
    true) = true := h.directory
  simpa using hdirectory

theorem sameIdentity_attached {d : Device} (h : Plugged usbPlatform keyboardAttached d)
    (hnew : ¬ Plugged usbPlatform nothing d) : SameIdentity (keyboard "1-4") d := by
  have hidentity := h.identity
  rcases directory_attached h.directory with hroot | hdevice
  · rw [hroot] at hidentity
    refine absurd ⟨?_, ?_⟩ hnew
    · rw [hroot]
      rfl
    · rw [hroot]
      exact hidentity
  · rw [hdevice] at hidentity
    exact SameIdentity.trans (by decide) hidentity

theorem startup_covers_attached : reapplied.Handed (keyboard "1-4") := by
  have hswept : ReflTransGen (fun s s' => Step Json.reference usbPlatform s s' ∧
      Timely usbPlatform s s')
      (start (idle nothing [keyboardEntry "1-4"]))
      ⟨idle nothing [keyboardEntry "1-4"], .watching, none, [], []⟩ := by
    refine .head ⟨.enumerate rfl rfl, ?_⟩ (.head ⟨.turn rfl rfl rfl, ?_⟩
      (.single ⟨.watch rfl rfl, nofun⟩))
    · intro _ _ _ d hrecorded hplugged _
      obtain ⟨entry, hentry, hmatches⟩ := hrecorded
      obtain rfl : entry = keyboardEntry "1-4" := List.mem_singleton.mp hentry
      obtain ⟨_, _, _, _, hposition⟩ := matchesDevice_tuple hmatches
      have hroot : (keyboardEntry "1-4").key.position = lastSegment (str "/sys") :=
        plugged_nothing hplugged ▸ hposition rfl
      exact absurd hroot (by decide)
    · intro _ _ _ d _ hplugged hnew
      exact absurd hplugged (hnew.resolve_left nofun)
  have hrun : ReflTransGen (fun s s' => Step Json.reference usbPlatform s s' ∧
      Timely usbPlatform s s')
      (start (idle nothing [keyboardEntry "1-4"])) reapplied := by
    have hannounced : Announces usbPlatform ⟨idle nothing [keyboardEntry "1-4"],
        .watching, none, [], []⟩
        keyboardAttached [⟨.added, keyboard "1-4"⟩] := fun d hplugged hnew =>
      ⟨_, List.mem_singleton.mpr rfl, nofun, sameIdentity_attached hplugged hnew⟩
    refine hswept.trans
      (.head ⟨.machine hannounced, nofun⟩ (.head ⟨.deliver rfl rfl rfl, nofun⟩
      (.single ⟨.apply rfl rfl ?_, nofun⟩)))
    exact fun d hplugged hnew => absurd ⟨hplugged.directory, hplugged.identity⟩ hnew
  exact startup_covers hrun ⟨rfl, rfl, rfl⟩
    ⟨keyboardEntry "1-4", List.mem_singleton.mpr rfl, by decide⟩ (by decide)

theorem startup_misses_keyboard : ¬ ∀ s device,
    ReflTransGen (Step Json.reference usbPlatform)
      (start (idle nothing [keyboardEntry "1-4"])) s →
        s.Quiet → Listed s.daemon.entries device → Plugged usbPlatform s.daemon.world device →
        s.Handed device := by
  intro hcovers
  have hrun : ReflTransGen (Step Json.reference usbPlatform)
      (start (idle nothing [keyboardEntry "1-4"]))
      ⟨idle keyboardAttached [keyboardEntry "1-4"], .watching, none, [], []⟩ := by
    refine .head (.enumerate rfl rfl) (.head (.turn rfl rfl rfl) ?_)
    have hsilent : Announces usbPlatform ⟨idle nothing [keyboardEntry "1-4"],
        .sweeping [] [], none, [], []⟩
        keyboardAttached [] := rfl
    refine .head (.machine hsilent) ?_
    exact .single (.watch rfl rfl)
  obtain ⟨_, hnone, _⟩ := hcovers _ (keyboard "1-4") hrun ⟨rfl, rfl, rfl⟩
    ⟨keyboardEntry "1-4", List.mem_singleton.mpr rfl, by decide⟩ (by decide)
  exact List.not_mem_nil hnone

end Runs

end Startup

end DevMgr.Daemon
