import DevMgr.Daemon.AtomicFile
import DevMgr.Library.Disk

/-!
# The steps of an atomic write

What `atomicWriteFile` does to the disk, call by call. The temporary file is synced before
it is renamed and the directory afterwards, so at every step the target is bound to a
file it had before or to the complete new one.
-/

open DevMgr.Core

namespace DevMgr.Daemon
open Bytes

abbrev Volume := Disk Str Str

abbrev DiskOp := Disk.Op Str Str

def writeOps (fault : Option WriteFault) (fileName content : Str) : List DiskOp :=
  let tmp := tmpName fileName
  let drop (left : Option Str) : List DiskOp := if left = none then [.unlink tmp] else []
  match fault with
  | some .open => []
  | some (.write left) => .fill tmp (left.getD content) :: drop left
  | some (.sync .close left) => .fill tmp (left.getD content) :: .sync tmp :: drop left
  | some (.sync _ left) => .fill tmp (left.getD content) :: drop left
  | some (.rename _ left) => .fill tmp (left.getD content) :: .sync tmp :: drop left
  | some (.syncDir .close) => [.fill tmp content, .sync tmp, .rename tmp fileName, .syncDir]
  | some (.syncDir _) => [.fill tmp content, .sync tmp, .rename tmp fileName]
  | none => [.fill tmp content, .sync tmp, .rename tmp fileName, .syncDir]

theorem atomicWriteFile_fault {e : Env} (fault : WriteFault) (d : Directory)
    (fileName content : Str) :
    ∃ error d', atomicWriteFile e (some fault) d fileName content = (.error error, d') := by
  cases fault <;> exact ⟨_, _, rfl⟩

/-- The disk shows the directory. -/
def Shows (disk : Volume) (d : Directory) : Prop := ∀ name : Str, disk.shows name = d[name]?

section Shows
variable {disk : Volume} {d : Directory} {name other content : Str}

theorem shows_rest (d : Directory) : Shows (.rest fun name : Str => d[name]?) d :=
  fun name => Disk.shows_rest _ name

theorem shows_fill (h : Shows disk d) :
    Shows (disk.apply (.fill name content)) (d.insert name content) := by
  intro n
  by_cases hn : n = name
  · subst hn
    simp [Disk.shows, Disk.apply]
  · have hother := h n
    rw [Disk.shows] at hother ⊢
    rw [Disk.apply, Disk.now_bind_other hn, hother]
    simp [Std.ExtTreeMap.getElem?_insert, Ne.symm hn]

theorem shows_unlink (h : Shows disk d) : Shows (disk.apply (.unlink name)) (d.erase name) := by
  intro n
  by_cases hn : n = name
  · subst hn
    simp [Disk.shows, Disk.apply]
  · have hother := h n
    rw [Disk.shows] at hother ⊢
    rw [Disk.apply, Disk.now_bind_other hn, hother]
    simp [Std.ExtTreeMap.getElem?_erase, Ne.symm hn]

theorem shows_sync (h : Shows disk d) : Shows (disk.apply (.sync name)) d := by
  intro n
  rw [← h n]
  exact Disk.shows_sync name n

theorem shows_syncDir (h : Shows disk d) : Shows (disk.apply .syncDir) d := h

theorem shows_rename (h : Shows disk (d.insert name content)) :
    Shows (disk.apply (.rename name other)) ((d.erase name).insert other content) := by
  intro n
  have hname := h name
  rw [Std.ExtTreeMap.getElem?_insert_self, Disk.shows] at hname
  obtain ⟨file, hfile, rfl⟩ := Option.map_eq_some_iff.mp hname
  rw [Disk.shows, Disk.apply, hfile]
  by_cases hn : n = other
  · subst hn
    simp
  · rw [Disk.now_bind_other hn]
    by_cases hsource : n = name
    · subst hsource
      simp [Ne.symm hn]
    · have hother := h n
      rw [Disk.shows] at hother
      rw [Disk.now_bind_other hsource, hother]
      simp [Std.ExtTreeMap.getElem?_insert, Std.ExtTreeMap.getElem?_erase,
        Ne.symm hn, Ne.symm hsource]

theorem insert_erase (d : Directory) (name content : Str) :
    (d.insert name content).erase name = d.erase name := by
  refine Std.ExtTreeMap.ext_getElem? fun n => ?_
  by_cases hn : n = name
  · simp [hn]
  · simp [Std.ExtTreeMap.getElem?_erase, Std.ExtTreeMap.getElem?_insert, Ne.symm hn]

theorem shows_drop {fileName : Str} {left : Option Str}
    (h : Shows disk (d.insert (tmpName fileName) (left.getD content))) :
    Shows (Disk.run (if left = none then [.unlink (tmpName fileName)] else []) disk)
      (dropTmp d fileName left) := by
  cases left with
  | none =>
    have hunlink := @shows_unlink _ _ (tmpName fileName) h
    rwa [insert_erase] at hunlink
  | some kept => exact h

theorem shows_write (e : Env) (fault : Option WriteFault) {fileName : Str} (h : Shows disk d) :
    Shows (Disk.run (writeOps fault fileName content) disk)
      (atomicWriteFile e fault d fileName content).2 := by
  have hfill : ∀ c, Shows (disk.apply (.fill (tmpName fileName) c))
      (d.insert (tmpName fileName) c) :=
    fun c => shows_fill h
  match fault with
  | some .open => exact h
  | some (.write left) => exact shows_drop (hfill _)
  | some (.sync .open left) => exact shows_drop (hfill _)
  | some (.sync .sync left) => exact shows_drop (hfill _)
  | some (.sync .close left) => exact shows_drop (shows_sync (hfill _))
  | some (.rename _ left) => exact shows_drop (shows_sync (hfill _))
  | some (.syncDir .open) => exact shows_rename (shows_sync (hfill _))
  | some (.syncDir .sync) => exact shows_rename (shows_sync (hfill _))
  | some (.syncDir .close) => exact shows_syncDir (shows_rename (shows_sync (hfill _)))
  | none => exact shows_syncDir (shows_rename (shows_sync (hfill _)))

end Shows

section Crash
variable {disk : Volume} {A : Option (Disk.File Str) → Prop} {fileName name content : Str}

theorem tmpName_ne (fileName : Str) : fileName ≠ tmpName fileName := by
  intro h
  have hlength := congrArg List.length h
  have htmp : (str ".tmp").length = 4 := by decide
  rw [tmpName, List.length_append, htmp] at hlength
  omega

theorem untouched_drop {left : Option Str} (hname : name ≠ tmpName fileName) :
    ∀ op ∈ (if left = none then [Disk.Op.unlink (tmpName fileName)] else [] : List DiskOp),
    ¬ op.Touches name := by
  split_ifs
  · exact List.forall_mem_singleton.mpr hname.symm
  · exact nofun

theorem untouched_write (fault : Option WriteFault) (hname : name ≠ fileName)
    (htmp : name ≠ tmpName fileName) : ∀ op ∈ writeOps fault fileName content,
    ¬ op.Touches name := by
  match fault with
  | some .open => exact nofun
  | some (.write left) | some (.sync .open left) | some (.sync .sync left) =>
    exact List.forall_mem_cons.mpr ⟨htmp.symm, untouched_drop htmp⟩
  | some (.sync .close left) | some (.rename _ left) =>
    exact List.forall_mem_cons.mpr ⟨htmp.symm,
      List.forall_mem_cons.mpr ⟨htmp.symm, untouched_drop htmp⟩⟩
  | some (.syncDir .open) | some (.syncDir .sync) | some (.syncDir .close) | none =>
    simp [writeOps, Disk.Op.Touches, htmp.symm, hname.symm]

theorem along_prepared (h : disk.Within A fileName) (content : Str) :
    Disk.Along (Disk.Within A fileName) [.fill (tmpName fileName) content,
      .sync (tmpName fileName)] disk ∧
      (Disk.run [.fill (tmpName fileName) content, .sync (tmpName fileName)] disk).now
        (tmpName fileName) =
        some ⟨content, true⟩ := by
  have hne := (tmpName_ne fileName).symm
  refine ⟨Disk.along_untouched (by simp [Disk.Op.Touches, hne]) h, ?_⟩
  simp [Disk.run, Disk.apply]

theorem along_renamed (h : disk.Within A fileName) (hnew : A (some ⟨content, true⟩)) :
    Disk.Along (Disk.Within A fileName)
      [.fill (tmpName fileName) content, .sync (tmpName fileName),
        .rename (tmpName fileName) fileName] disk := by
  obtain ⟨hprepared, hnow⟩ := along_prepared h content
  have hsource :
      ∀ f, (Disk.run [.fill (tmpName fileName) content, .sync (tmpName fileName)] disk).now
      (tmpName fileName) = some f → A (some f) := by
    intro f hf
    rw [hnow] at hf
    exact Option.some.inj hf ▸ hnew
  have hrenamed := hprepared.snoc (Disk.within_rename (tmpName_ne _) hprepared.last hsource)
  exact hrenamed

theorem along_synced (h : disk.Within A fileName) (hnew : A (some ⟨content, true⟩)) :
    Disk.Along (Disk.Within A fileName)
      [.fill (tmpName fileName) content, .sync (tmpName fileName),
        .rename (tmpName fileName) fileName, .syncDir]
      disk := by
  have hrenamed := along_renamed h hnew
  have hsynced := hrenamed.snoc (Disk.within_syncDir.mpr hrenamed.last.now)
  exact hsynced

theorem along_write (fault : Option WriteFault) (h : disk.Within A fileName)
    (hnew : A (some ⟨content, true⟩)) :
    Disk.Along (Disk.Within A fileName) (writeOps fault fileName content) disk := by
  have htmp := tmpName_ne fileName
  match fault with
  | some .open => exact h
  | some (.write left) | some (.sync .open left) | some (.sync .sync left) =>
    exact Disk.along_untouched (List.forall_mem_cons.mpr ⟨htmp.symm, untouched_drop htmp⟩) h
  | some (.sync .close left) | some (.rename _ left) =>
    exact Disk.along_untouched
      (List.forall_mem_cons.mpr ⟨htmp.symm,
        List.forall_mem_cons.mpr ⟨htmp.symm, untouched_drop htmp⟩⟩) h
  | some (.syncDir .open) | some (.syncDir .sync) => exact along_renamed h hnew
  | some (.syncDir .close) | none => exact along_synced h hnew

theorem settled_write {n : Str} (content : Str) :
    (Disk.run (writeOps none fileName content) disk).Within
      (· = (Disk.run (writeOps none fileName content) disk).now n) n :=
  Disk.within_syncDir.mpr rfl

theorem now_write (disk : Volume) (fileName content : Str) :
    (Disk.run (writeOps none fileName content) disk).now fileName = some ⟨content, true⟩ := by
  obtain ⟨_, hnow⟩ := @along_prepared disk (fun _ => True) fileName (fun _ _ => trivial) content
  have hrename : (Disk.run (writeOps none fileName content) disk).now fileName =
      ((Disk.run [.fill (tmpName fileName) content, .sync (tmpName fileName)] disk).apply
        (.rename (tmpName fileName) fileName)).now fileName := rfl
  rw [hrename, Disk.apply, hnow]
  exact Disk.now_bind_self _

end Crash

end DevMgr.Daemon
