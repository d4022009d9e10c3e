import DevMgr.Core.DeviceKey
import DevMgr.Daemon.EntryJson

/-!
# The state store

The store keeps one list of disabled entries in memory and writes all of it to
`state.json` after every change. An entry is found by its key, or, for a device,
also by the path it was last seen at. Of several entries with one key the first
is changed; a removal takes them all.
-/

open DevMgr.Core

namespace DevMgr.Daemon
open Bytes

namespace StateStore

def document (entries : List DisabledDeviceEntry) : Json :=
  .obj [(str "entries", .arr (entries.map entryToJson)), (str "version", .int 1)]

def update (key : DeviceKey) (f : DisabledDeviceEntry → DisabledDeviceEntry) :
    List DisabledDeviceEntry → Option (List DisabledDeviceEntry)
  | [] => none
  | e :: es => if e.key = key then some (f e :: es) else (update key f es).map (e :: ·)

def upsert (entry : DisabledDeviceEntry) (entries : List DisabledDeviceEntry) :
    List DisabledDeviceEntry :=
  (update entry.key (fun _ => entry) entries).getD (entries ++ [entry])

def remove (key : DeviceKey) (entries : List DisabledDeviceEntry) : List DisabledDeviceEntry :=
  entries.filter fun e => e.key ≠ key

def findFor (device : Device) (entries : List DisabledDeviceEntry) : Option DisabledDeviceEntry :=
  entries.find? fun e => matchesDevice e.key device ∨ e.lastSysfsPath = device.sysfsPath

end StateStore

theorem update_split {key : DeviceKey} {f : DisabledDeviceEntry → DisabledDeviceEntry}
    {entries entries' : List DisabledDeviceEntry}
    (h : StateStore.update key f entries = some entries') :
    ∃ first e rest, entries = first ++ e :: rest ∧ entries' = first ++ f e :: rest ∧
      e.key = key ∧
      ∀ e ∈ first, e.key ≠ key := by
  induction entries generalizing entries' with
  | nil => exact absurd h (by simp [StateStore.update])
  | cons e es ih =>
    rw [StateStore.update] at h
    split_ifs at h with hkey
    · obtain rfl := Option.some.inj h
      exact ⟨[], e, es, rfl, rfl, hkey, fun _ he => absurd he List.not_mem_nil⟩
    · obtain ⟨es', hes', rfl⟩ := Option.map_eq_some_iff.mp h
      obtain ⟨first, e', rest, rfl, rfl, hkey', hfirst⟩ := ih hes'
      exact ⟨e :: first, e', rest, rfl, rfl, hkey', List.forall_mem_cons.mpr ⟨hkey, hfirst⟩⟩

theorem update_map {β : Type} {g : DisabledDeviceEntry → β} {key : DeviceKey}
    {f : DisabledDeviceEntry → DisabledDeviceEntry} {entries entries' : List DisabledDeviceEntry}
    (hf : ∀ e, e.key = key → g (f e) = g e) (h : StateStore.update key f entries = some entries') :
    entries'.map g = entries.map g := by
  obtain ⟨first, e, rest, rfl, rfl, hkey, -⟩ := update_split h
  rw [List.map_append, List.map_append, List.map_cons, List.map_cons, hf e hkey]

theorem update_isSome {key : DeviceKey} {f : DisabledDeviceEntry → DisabledDeviceEntry}
    {entries : List DisabledDeviceEntry} (h : ∃ e ∈ entries, e.key = key) :
    (StateStore.update key f entries).isSome := by
  induction entries with
  | nil => simp at h
  | cons e es ih =>
    rw [StateStore.update]
    split_ifs with hkey
    · rfl
    · obtain ⟨e', he', hkey'⟩ := h
      have hmem : e' ∈ es := (List.mem_cons.mp he').resolve_left fun heq => hkey (heq ▸ hkey')
      rw [Option.isSome_map]
      exact ih ⟨e', hmem, hkey'⟩

theorem update_forall {p : DisabledDeviceEntry → Prop} {key : DeviceKey}
    {f : DisabledDeviceEntry → DisabledDeviceEntry} {entries entries' : List DisabledDeviceEntry}
    (hf : ∀ e ∈ entries, p (f e)) (hp : ∀ e ∈ entries, p e)
    (h : StateStore.update key f entries = some entries') : ∀ e ∈ entries', p e := by
  obtain ⟨first, e, rest, rfl, rfl, -, -⟩ := update_split h
  obtain ⟨hfirst, herest⟩ := List.forall_mem_append.mp hp
  obtain ⟨-, hrest⟩ := List.forall_mem_cons.mp herest
  have hchanged : p (f e) := hf e (List.mem_append_right first List.mem_cons_self)
  exact List.forall_mem_append.mpr ⟨hfirst, List.forall_mem_cons.mpr ⟨hchanged, hrest⟩⟩

theorem update_changed {key : DeviceKey} {f : DisabledDeviceEntry → DisabledDeviceEntry}
    {entries entries' : List DisabledDeviceEntry}
    (h : StateStore.update key f entries = some entries') :
    ∃ e ∈ entries, e.key = key ∧ f e ∈ entries' := by
  obtain ⟨first, e, rest, rfl, rfl, hkey, -⟩ := update_split h
  exact ⟨e, List.mem_append_right first List.mem_cons_self, hkey,
    List.mem_append_right first List.mem_cons_self⟩

end DevMgr.Daemon
