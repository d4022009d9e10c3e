import DevMgr.App.ModuleRows
import DevMgr.App.ModulesVM
import DevMgr.App.Preview
import DevMgr.App.SnapshotRows
import DevMgr.App.UpdateRows

/-!
# Rows that stay text

The rows of the lists of snapshots, updates and modules and the lines of a diff
are valid UTF-8 where no precision, no cut of a cell and no end of a buffer falls
into a code point, and nowhere else.
-/

open DevMgr.Core

namespace DevMgr.App
open Bytes Printf Run

structure TextEntry (entry : SnapshotDiffEntry) : Prop where
  kind : validUtf8 entry.kind = true
  key : validUtf8 entry.key = true
  before : validUtf8 entry.before = true
  after : validUtf8 entry.after = true

def behindKind (entry : SnapshotDiffEntry) : ℕ := max 9 (Printf.cString entry.kind).length

/-- The end of the buffer falls into none of the four texts. -/
def LineWhole (entry : SnapshotDiffEntry) : Prop :=
  Boundary 255 (Printf.cString entry.kind) ∧
  Boundary (255 - behindKind entry) (Printf.cString entry.key) ∧
  Boundary (255 - (behindKind entry + (Printf.cString entry.key).length + 2))
    (Printf.cString entry.before) ∧
  Boundary (255 - (behindKind entry + (Printf.cString entry.key).length + 2 +
    (Printf.cString entry.before).length + 4)) (Printf.cString entry.after)

instance (entry : SnapshotDiffEntry) : Decidable (LineWhole entry) :=
  inferInstanceAs (Decidable (_ ∧ _ ∧ _ ∧ _))

def lineParts (entry : SnapshotDiffEntry) : List Part :=
  column 9 (whole (Printf.cString entry.kind)) ++ [whole (Printf.cString entry.key),
    whole (str ": "),
    whole (Printf.cString entry.before), whole (str " -> "), whole (Printf.cString entry.after)]

theorem diffEntryLine_snprintf (entry : SnapshotDiffEntry) : diffEntryLine entry =
    snprintf 256 [.string 9 none entry.kind, .string 0 none entry.key, .literal (str ": "),
      .string 0 none entry.before, .literal (str " -> "), .string 0 none entry.after] := by
  simp [diffEntryLine, snprintf, kindColumn, Piece.render, padded, Printf.cString]

theorem diffEntryLine_valid {entry : SnapshotDiffEntry} (h : TextEntry entry) :
    validUtf8 (diffEntryLine entry) = true ↔ LineWhole entry := by
  have hcolon : ∀ c ∈ str ": ", c < 0x80 := ascii_of_all (by decide)
  have harrow : ∀ c ∈ str " -> ", c < 0x80 := ascii_of_all (by decide)
  have htwo : (str ": ").length = 2 := by decide
  have hfour : (str " -> ").length = 4 := by decide
  have hparts : diffEntryLine entry = (bytes (lineParts entry)).take 255 := by
    simp [diffEntryLine, lineParts, bytes_column, kindColumn, padded, Printf.cString]
  have hvalid : ∀ p ∈ lineParts entry, validUtf8 p.text = true := by
    simp [lineParts, column, whole, spaces_valid, validUtf8_ascii hcolon, validUtf8_ascii harrow,
      cString_valid h.kind, cString_valid h.key, cString_valid h.before, cString_valid h.after]
  rw [hparts, ← Nat.sub_zero 255, validUtf8_iff_fits hvalid, lineParts]
  simp only [fits_column, fits_whole, fits_ascii hcolon, fits_ascii harrow, fits_nil,
    shown_whole, htwo, hfour,
    LineWhole, behindKind, and_true]
  rw [whole, boundary_whole]
  simp only [Nat.zero_add, Nat.sub_zero]

def ModuleRow.text : ModuleRow → Str
  | .listed m signature => ModuleRows.formatModuleRow m signature (ModuleRows.joinHolders m.holders)
  | .placeholder text => text

def TextDetail (info : Result Driver) : Prop :=
  ∀ d, info = .ok d → ∀ signer, d.signer = some signer → validUtf8 signer = true

def TextListing (loaded : Result (List LoadedModule)) : Prop :=
  ∀ list, loaded = .ok list → ∀ m ∈ list, ModuleRows.TextModule m

theorem signatureCellFor_valid {info : Result Driver} (h : TextDetail info) :
    validUtf8 (signatureCellFor info) = true := by
  have hlead : validUtf8 (str "yes (") = true := by decide
  have hlast : ∀ c ∈ str ")", c < 0x80 := ascii_of_all (by decide)
  unfold signatureCellFor
  split
  · rename_i d
    unfold signatureLabel
    split_ifs
    · split
      · rename_i hsigner
        rw [validUtf8_before hlast, validUtf8_after hlead]
        exact h d rfl _ hsigner
      · decide
    · decide
  · decide

namespace ModulesVM

structure TextState (s : ModulesVM) : Prop where
  loaded : TextListing s.loaded
  detail : ∀ name, TextDetail (s.moduleDetail name)
  snapshot : ∀ m ∈ s.snapshot, ModuleRows.TextModule m
  cells : ∀ name cell : Str, s.signatureCell[name]? = some cell → validUtf8 cell = true
  posts : ∀ c ∈ s.posts.flatMap Post.cells, validUtf8 c.2 = true
  fill : ∀ fill, s.sigFill = some fill → ∀ c ∈ fill.cells, validUtf8 c.2 = true
  listed : ∀ m signature, .listed m signature ∈ s.rows →
    ModuleRows.TextModule m ∧ validUtf8 signature = true
  placeholder : ∀ text, .placeholder text ∈ s.rows → validUtf8 text = true

def Action.Text : Action → Prop
  | .change loaded moduleDetail _ => TextListing loaded ∧ ∀ name, TextDetail (moduleDetail name)
  | _ => True

variable {s s' : ModulesVM} {a : Action}

theorem textState_start {loaded : Result (List LoadedModule)} {moduleDetail : Str → Result Driver}
    (hloaded : TextListing loaded) (hdetail : ∀ name, TextDetail (moduleDetail name))
    (available : Bool) :
    (start loaded moduleDetail available).TextState where
  loaded := hloaded
  detail := hdetail
  snapshot := by simp [start]
  cells name cell h := by simp [start] at h
  posts := by simp [start]
  fill := by simp [start]
  listed := by simp [start]
  placeholder := by simp [start]

theorem TextState.rebuild (h : s.TextState) : s.rebuild.TextState := by
  have hlisting : ∀ m ∈ s.listing, ModuleRows.TextModule m := by
    intro m hm
    rw [ModulesVM.listing, List.mem_insertionSort] at hm
    cases hl : s.loaded with
    | error e => simp [hl, Except.toOption] at hm
    | ok list => exact h.loaded list hl m (by simpa [hl, Except.toOption] using hm)
  have hcell : ∀ name, validUtf8 (({ s with snapshot := s.listing } : ModulesVM).cellOf name) =
      true := by
    intro name
    change validUtf8 ((s.signatureCell[name]?).getD (str "…")) = true
    cases hc : s.signatureCell[name]? with
    | none => decide
    | some cell => exact h.cells name cell hc
  have hrows : s.rebuild.rows = ({ s with snapshot := s.listing } : ModulesVM).rowsOf := rfl
  refine ⟨h.loaded, h.detail, hlisting, h.cells, h.posts, h.fill, fun m signature hrow => ?_,
    fun text hrow => ?_⟩
  · rw [hrows, rowsOf] at hrow
    split_ifs at hrow
    · simp at hrow
    · simp at hrow
    · obtain ⟨n, hn, heq⟩ := List.mem_map.mp hrow
      obtain ⟨rfl, rfl⟩ := ModuleRow.listed.inj heq
      exact ⟨hlisting n (List.mem_of_mem_filter hn), hcell n.name⟩
  · rw [hrows, rowsOf] at hrow
    split_ifs at hrow with hempty hfilter
    · rw [ModuleRow.placeholder.inj (List.mem_singleton.mp hrow)]
      decide
    · rw [ModuleRow.placeholder.inj (List.mem_singleton.mp hrow)]
      decide
    · obtain ⟨n, _, heq⟩ := List.mem_map.mp hrow
      cases heq

theorem TextState.withPosts (h : s.TextState) (posts : List Post)
    (hposts : ∀ c ∈ posts.flatMap Post.cells, c ∈ s.posts.flatMap Post.cells) :
    ({ s with posts } : ModulesVM).TextState :=
  ⟨h.loaded, h.detail, h.snapshot, h.cells, fun c hc => h.posts c (hposts c hc), h.fill,
    h.listed, h.placeholder⟩

theorem TextState.runMerge (h : s.TextState) {id : ℕ} {cells : List (Str × Str)} {rest : List Post}
    (hposts : s.posts = .merge id cells :: rest) : (s.runMerge id cells rest).TextState := by
  have hall := h.posts
  simp only [hposts, List.flatMap_cons, List.forall_mem_append] at hall
  refine ⟨h.loaded, h.detail, h.snapshot, fun name cell hcell => ?_, hall.2, h.fill,
    h.listed, h.placeholder⟩
  obtain hold | hnew := mergeCells_cases hcell
  · exact h.cells name cell hold
  · exact hall.1 _ hnew

theorem TextState.fillSignatures (h : s.TextState) : s.fillSignatures.TextState := by
  unfold ModulesVM.fillSignatures
  split
  · exact ⟨h.loaded, h.detail, h.snapshot, h.cells, h.posts, h.fill, h.listed, h.placeholder⟩
  · split_ifs
    · exact ⟨h.loaded, h.detail, h.snapshot, h.cells, h.posts, h.fill, h.listed, h.placeholder⟩
    · refine ⟨h.loaded, h.detail, h.snapshot, h.cells, h.posts, fun fill hfill => ?_,
        h.listed, h.placeholder⟩
      obtain rfl := Option.some.inj hfill
      exact nofun

theorem TextState.step (h : s.TextState) (ha : a.Text) (hstep : s.step a = some s') :
    s'.TextState := by
  cases a with
  | change loaded moduleDetail available =>
    obtain rfl := Option.some.inj hstep
    exact ⟨ha.1, ha.2, h.snapshot, h.cells, h.posts, h.fill, h.listed, h.placeholder⟩
  | publish =>
    obtain rfl := Option.some.inj hstep
    exact ⟨h.loaded, h.detail, h.snapshot, h.cells, h.posts, h.fill, h.listed, h.placeholder⟩
  | postRebuild =>
    simp only [ModulesVM.step] at hstep
    split_ifs at hstep
    obtain rfl := Option.some.inj hstep
    have hposted := h.withPosts (s.posts ++ [.rebuild]) (by simp [Post.cells])
    exact ⟨h.loaded, h.detail, h.snapshot, h.cells, hposted.posts, h.fill,
      h.listed, h.placeholder⟩
  | runPost =>
    simp only [ModulesVM.step] at hstep
    split at hstep
    · cases hstep
    · rename_i rest hposts
      obtain rfl := Option.some.inj hstep
      have htaken : (s.runRebuild rest).TextState := by
        have hrest := h.withPosts rest (by simp [hposts, Post.cells])
        exact ⟨h.loaded, h.detail, h.snapshot, h.cells, hrest.posts, h.fill,
          h.listed, h.placeholder⟩
      exact htaken.rebuild
    · rename_i id cells rest hposts
      obtain rfl := Option.some.inj hstep
      exact (h.runMerge hposts).rebuild
  | rebuild =>
    obtain rfl := Option.some.inj hstep
    exact h.rebuild
  | setFilter filter =>
    obtain rfl := Option.some.inj hstep
    have hfilter : ({ s with filter := filter.map toLower } : ModulesVM).TextState :=
      ⟨h.loaded, h.detail, h.snapshot, h.cells, h.posts, h.fill, h.listed, h.placeholder⟩
    exact hfilter.rebuild
  | fillSignatures =>
    obtain rfl := Option.some.inj hstep
    exact h.fillSignatures
  | readNext =>
    obtain ⟨id, name, left, cells, hfill, rfl⟩ := readNext_inv hstep
    refine ⟨h.loaded, h.detail, h.snapshot, h.cells, h.posts, fun fill hnew => ?_,
      h.listed, h.placeholder⟩
    obtain rfl := Option.some.inj hnew
    intro c hc
    rcases List.mem_append.mp hc with hc | hc
    · exact h.fill _ hfill c hc
    · rw [List.mem_singleton.mp hc]
      exact signatureCellFor_valid (h.detail name)
  | postMerge =>
    obtain ⟨id, cells, hfill, rfl⟩ := postMerge_inv hstep
    have hcells := h.fill _ hfill
    refine ⟨h.loaded, h.detail, h.snapshot, h.cells, ?_, fun fill hnew => ?_,
      h.listed, h.placeholder⟩
    · simp only [List.flatMap_append, List.forall_mem_append]
      exact ⟨h.posts, by simpa [Post.cells] using hcells⟩
    · obtain rfl := Option.some.inj hnew
      exact hcells
  | endFill =>
    obtain ⟨-, rfl⟩ := endFill_inv hstep
    refine ⟨h.loaded, h.detail, h.snapshot, h.cells, h.posts, fun fill hfill => ?_,
      h.listed, h.placeholder⟩
    cases hfill

theorem TextState.rows_valid (h : s.TextState) : (∀ row ∈ s.rows, validUtf8 row.text = true) ↔
    ∀ m signature, .listed m signature ∈ s.rows → ModuleRows.RowWhole m signature := by
  have hone : ∀ {m signature}, .listed m signature ∈ s.rows →
      (validUtf8 (ModuleRow.listed m signature).text = true ↔ ModuleRows.RowWhole m signature) :=
    fun hrow => ModuleRows.formatModuleRow_valid (h.listed _ _ hrow).1 (h.listed _ _ hrow).2
  constructor
  · exact fun hall m signature hrow => (hone hrow).mp (hall _ hrow)
  · intro hall row hrow
    cases row with
    | listed m signature => exact (hone hrow).mpr (hall m signature hrow)
    | placeholder text => exact h.placeholder text hrow

theorem textState_run {loaded : Result (List LoadedModule)} {moduleDetail : Str → Result Driver}
    (hloaded : TextListing loaded) (hdetail : ∀ name, TextDetail (moduleDetail name))
    {available : Bool} {actions : List Action} (hactions : ∀ a ∈ actions, a.Text)
    (hrun : runSome step (start loaded moduleDetail available) actions = some s) : s.TextState := by
  have hgoes : ∀ (actions : List Action), (∀ a ∈ actions, a.Text) →
      ∀ t : ModulesVM, t.TextState →
      runSome step t actions = some s → s.TextState := by
    intro actions
    induction actions with
    | nil => exact fun _ t ht hrun => Option.some.inj hrun ▸ ht
    | cons a rest ih =>
      intro hall t ht hrun
      obtain ⟨t', hstep, hrest⟩ := (runSome_cons step).mp hrun
      exact ih (fun b hb => hall b (List.mem_cons_of_mem _ hb)) t'
        (ht.step (hall a List.mem_cons_self) hstep) hrest
  exact hgoes actions hactions _ (textState_start hloaded hdetail available) hrun

end ModulesVM

open SnapshotRows in
/-- Every row and line is valid UTF-8 exactly where none of its texts is cut within a code point. -/
theorem rows_stay_text (z : LocalTime) (historyView daemonAvailability : Bool) (filter : Str)
    (metas : List SnapshotMeta) (pending : List PendingAction) (snapshot : List UpdateProviderState)
    (entry : SnapshotDiffEntry) (loaded : Result (List LoadedModule))
    (moduleDetail : Str → Result Driver)
    (available : Bool) (actions : List ModulesVM.Action) (s : ModulesVM) :
    (validUtf8 filter = true → (∀ m ∈ metas, TextMeta m) →
      ((∀ row ∈ SnapshotRows.rows z historyView filter daemonAvailability metas,
        validUtf8 row = true) ↔
        ∀ m ∈ metas, matchesNeedle (filter.map toLower) m = true →
        SnapshotRows.RowWhole m)) ∧
    ((∀ state ∈ snapshot, ∀ c ∈ state.candidates, UpdateRows.TextCandidate state c) →
      ((∀ row ∈ UpdateRows.rows pending snapshot, validUtf8 row = true) ↔
        ∀ state ∈ snapshot, ∀ c ∈ state.candidates,
        UpdateRows.RowWhole state.providerId c.displayName
          c.currentVersion (c.candidateVersion.getD (str "-")))) ∧
    (TextEntry entry → (validUtf8 (diffEntryLine entry) = true ↔ LineWhole entry)) ∧
    (TextListing loaded → (∀ name, TextDetail (moduleDetail name)) →
      (∀ a ∈ actions, a.Text) →
      runSome ModulesVM.step (ModulesVM.start loaded moduleDetail available) actions = some s →
      ((∀ row ∈ s.rows, validUtf8 row.text = true) ↔
        ∀ m signature, .listed m signature ∈ s.rows → ModuleRows.RowWhole m signature)) :=
  ⟨fun hfilter hmetas => rows_valid z historyView hfilter daemonAvailability hmetas,
    fun h => UpdateRows.rows_valid pending h,
    fun h => diffEntryLine_valid h,
    fun hloaded hdetail hactions hrun =>
      (ModulesVM.textState_run hloaded hdetail hactions hrun).rows_valid⟩

section Labels

def clock : SnapshotRows.LocalTime where
  format _ := some (str "2026-01-01 00:00")
  ascii _ _ h := Option.some.inj h ▸ ascii_of_all (by decide)

def labelled (label : Str) : SnapshotMeta :=
  ⟨str "0123456789abcdef", none, 0, .manual, ⟨[], label⟩, .ok, 0, 0⟩

theorem labelled_text (label : Str) (h : validUtf8 label = true) :
    SnapshotRows.TextMeta (labelled label) where
  id := (by decide : validUtf8 (str "0123456789abcdef") = true)
  verb := rfl
  subject := h

def cutLabel : Str := str "für den großen Umbau vor dem Upgrade"

def cutCandidate : UpdateCandidate where
  providerId := str "fwupd"
  id := str "a1"
  displayName := str "Wärmesensor der Grafikkarte Größe XL"
  currentVersion := str "2026.11.4-größer"
  candidateVersion := some (str "2026.12.1-größer")
  facts := ⟨true, true, false⟩
  releases := []
  details := []

def cutUpdates : UpdateProviderState :=
  ⟨str "fwupd", ⟨true, none, none, []⟩, [cutCandidate], none⟩

def cutEntry : SnapshotDiffEntry :=
  ⟨str "device", str "Gerät", List.replicate 240 97, str "off"⟩

theorem cutEntry_whole : LineWhole cutEntry := by
  have hbefore : ∀ c ∈ cutEntry.before, c < 0x80 := by
    intro c hc
    rw [List.eq_of_mem_replicate hc]
    decide
  have hafter : ∀ c ∈ cutEntry.after, c < 0x80 := ascii_of_all (by decide)
  refine ⟨by decide, by decide, ?_, ?_⟩
  · exact boundary_ascii (cString_ascii hbefore) _
  · exact boundary_ascii (cString_ascii hafter) _

def cutModule : LoadedModule :=
  ⟨str "nvidia", 65536, 2, [str "größenmodul", str "nvidia_modeset"]⟩

def cutDetail (_ : Str) : Result Driver := .ok ⟨true, some (str "Röntgenwerk Modulschlüssel")⟩

def filled : List ModulesVM.Action :=
  [.rebuild, .fillSignatures, .readNext, .postMerge, .endFill, .runPost]

def filledModules : ModulesVM :=
  (runSome ModulesVM.step (ModulesVM.start (.ok [cutModule]) cutDetail false) filled).getD
    (ModulesVM.start (.ok [cutModule]) cutDetail false)

theorem filledModules_rows :
    filledModules.rows = [.listed cutModule (str "yes (Röntgenwerk Modulschlüssel)")] := rfl

theorem rows_stay_text_cut :
    (∀ row ∈ SnapshotRows.rows clock true (str "UMBAU") false
      [labelled cutLabel, labelled (str "Upgrade")],
      validUtf8 row = true) ∧
    (∀ row ∈ UpdateRows.rows [] [cutUpdates], validUtf8 row = true) ∧
    validUtf8 (diffEntryLine cutEntry) = true ∧
    ∀ row ∈ filledModules.rows, validUtf8 row.text = true := by
  obtain ⟨hsnapshots, hupdates, hdiff, hmodules⟩ :=
    rows_stay_text clock true false (str "UMBAU")
      [labelled cutLabel, labelled (str "Upgrade")] [] [cutUpdates] cutEntry
      (.ok [cutModule]) cutDetail false filled filledModules
  refine ⟨(hsnapshots (by decide) ?_).mpr ?_, (hupdates ?_).mpr ?_, (hdiff ?_).mpr cutEntry_whole,
    (hmodules ?_ ?_ ?_ rfl).mpr ?_⟩
  · intro m hm
    obtain rfl | rfl := List.mem_pair.mp hm
    · exact labelled_text _ (by decide)
    · exact labelled_text _ (by decide)
  · intro m hm _
    obtain rfl | rfl := List.mem_pair.mp hm
    · exact ⟨by decide, by decide⟩
    · exact ⟨by decide, by decide⟩
  · intro state hstate c hc
    obtain rfl := List.mem_singleton.mp hstate
    obtain rfl := List.mem_singleton.mp hc
    exact ⟨by decide, by decide, by decide, fun v hv => Option.some.inj hv ▸ by decide⟩
  · intro state hstate c hc
    obtain rfl := List.mem_singleton.mp hstate
    obtain rfl := List.mem_singleton.mp hc
    decide
  · exact ⟨by decide, by decide, by decide, by decide⟩
  · intro list hlist m hm
    obtain rfl := Except.ok.inj hlist
    obtain rfl := List.mem_singleton.mp hm
    exact ⟨by decide, by decide⟩
  · intro name d hd signer hsigner
    obtain rfl := Except.ok.inj hd
    obtain rfl := Option.some.inj hsigner
    decide
  · intro a ha
    simp only [filled, List.mem_cons, List.not_mem_nil, or_false] at ha
    obtain rfl | rfl | rfl | rfl | rfl | rfl := ha <;> trivial
  · intro m signature hrow
    rw [filledModules_rows] at hrow
    obtain ⟨rfl, rfl⟩ := ModuleRow.listed.inj (List.mem_singleton.mp hrow)
    decide

def umlautLabel : Str := str "snapshot before the updates fär"

theorem umlautLabel_cut : SnapshotRows.TextMeta (labelled umlautLabel) ∧
    ¬ ∀ row ∈ SnapshotRows.rows clock false [] false [labelled umlautLabel],
    validUtf8 row = true := by
  have htext := labelled_text umlautLabel (by decide)
  refine ⟨htext, fun hall => ?_⟩
  have hwhole := (SnapshotRows.rows_valid clock false rfl false (fun m hm => by
    rw [List.mem_singleton.mp hm]; exact htext)).mp hall (labelled umlautLabel) List.mem_cons_self
      (by decide)
  exact absurd hwhole.2 (by decide)

end Labels

end DevMgr.App
