import OpenSquilla.Patches.Plan

set_option autoImplicit false

namespace OpenSquilla.Patches

open TextLines

variable {Bytes : Type} {codec : Codec Bytes} {validatePath : Text → Except PatchError FilePath}
variable {disk now : FileTree Bytes} {states after : PathStates} {virtualContent : VirtualContent}

-- the states of the preflight say how the tree differs from the disk once the writes are made
def Tracks (disk now : FileTree Bytes) (states : PathStates) : Prop :=
  ∀ path,
    match states path with
    | none => now.node path = disk.node path
    | some .dir => now.node path = some .dir
    | some .absent => now.node path = none
    | some .file => ∃ bytes, now.node path = some (.file bytes)

-- a touched path whose file is gone may have become a directory, and so may an untouched one
def Foresees (codec : Codec Bytes) (now : FileTree Bytes) (states : PathStates)
    (virtualContent : VirtualContent) : Prop :=
  ∀ path,
    match virtualContent path with
    | none => states path = none ∨ states path = some .dir
    | some none => states path = some .absent ∨ states path = some .dir
    | some (some text) =>
      states path = some .file ∧
        ∃ bytes, now.node path = some (.file bytes) ∧ codec.decode bytes = some text

theorem preflightAncestors_ok {ancestors : List FilePath}
    (passed : preflightAncestors disk ancestors states = .ok after) :
    (∀ ancestor ∈ ancestors, states ancestor ≠ some .file ∧
      (states ancestor = none → ¬disk.isFile ancestor)) ∧
    after = fun path => if path ∈ ancestors then some .dir else states path := by
  induction ancestors generalizing states with
  | nil =>
    cases passed
    exact ⟨by nofun, by simp⟩
  | cons ancestor rest ih =>
    -- whatever the state, the ancestor is marked as a directory for the rest
    have marked : states ancestor ≠ some .file → (states ancestor = none → ¬disk.isFile ancestor) →
        preflightAncestors disk rest (Function.update states ancestor (some .dir)) = .ok after →
        (∀ other ∈ ancestor :: rest, states other ≠ some .file ∧
          (states other = none → ¬disk.isFile other)) ∧
        after = fun path => if path ∈ ancestor :: rest then some .dir else states path := by
      intro notFile notHeld tail
      obtain ⟨clear, same⟩ := ih tail
      refine ⟨List.forall_mem_cons.mpr ⟨⟨notFile, notHeld⟩, fun other mem => ?_⟩, ?_⟩
      · by_cases own : other = ancestor
        · exact own ▸ ⟨notFile, notHeld⟩
        · simpa only [Function.update_of_ne own] using clear other mem
      · rw [same]
        funext path
        by_cases own : path = ancestor
        · simp [own]
        · simp [own]
    unfold preflightAncestors at passed
    split at passed
    next => cases passed
    next dir =>
      refine marked (by simp [dir]) (by simp [dir]) ?_
      rwa [← dir, Function.update_eq_self]
    next absent => exact marked (by simp [absent]) (by simp [absent]) passed
    next unknown =>
      split at passed
      · cases passed
      next free =>
        refine marked (by simp [unknown]) (fun _ held => free ?_) passed
        obtain ⟨bytes, held⟩ := FileTree.isFile_iff.mp held
        simp [FileTree.present, FileTree.isDir, held]

theorem mem_pathAncestors {ancestor path : FilePath} : ancestor ∈ pathAncestors path ↔ ancestor <:+ path := by
  rw [pathAncestors, List.mem_reverse, List.mem_tails]

theorem preflightWrite_ok {path : FilePath} {text : Text}
    (passed : preflightWrite codec disk states path text = .ok after) :
    ∃ bytes name parent, codec.encode text = some bytes ∧ path = name :: parent ∧
      (∀ ancestor, ancestor <:+ parent → states ancestor ≠ some .file ∧
        (states ancestor = none → ¬disk.isFile ancestor)) ∧
      states path ≠ some .dir ∧ (states path = none → ¬disk.isDir path) ∧
      after = fun other =>
        if other = path then some .file else if other <:+ parent then some .dir else states other := by
  unfold preflightWrite at passed
  cases encoded : codec.encode text with
  | none =>
    rw [encoded] at passed
    cases passed
  | some bytes =>
    rw [encoded] at passed
    cases parents : preflightWriteParent disk path states with
    | error raised =>
      rw [parents] at passed
      cases passed
    | ok inner =>
      rw [parents] at passed
      obtain ⟨clear, rfl⟩ := preflightAncestors_ok parents
      simp only [mem_pathAncestors] at clear passed
      cases path with
      | nil =>
        -- the root is its own parent
        simp [bind, Except.bind] at passed
      | cons name parent =>
        rw [List.tail_cons] at clear passed
        have apart := FileTree.not_cons_suffix name parent
        simp only [bind, Except.bind, if_neg apart] at passed
        have marked : Function.update (fun path => if path <:+ parent then some .dir else states path)
            (name :: parent) (some PathState.file) = fun other => if other = name :: parent then some .file
              else if other <:+ parent then some .dir else states other :=
          funext fun other => Function.update_apply ..
        split at passed
        next => cases passed
        next unknown =>
          split at passed
          · cases passed
          next notDir =>
            cases passed
            exact ⟨bytes, name, parent, rfl, rfl, clear, by simp [unknown], fun _ => notDir, marked⟩
        next state notDir known =>
          cases passed
          refine ⟨bytes, name, parent, rfl, rfl, clear, ?_, by simp [known], marked⟩
          rw [known]
          exact fun same => notDir (Option.some.inj same)

theorem preflightDelete_ok {path : FilePath} (tracks : Tracks disk now states)
    (passed : preflightDelete disk states path = .ok after) :
    (∃ bytes, now.node path = some (.file bytes)) ∧ states path ≠ some .dir ∧
      after = Function.update states path (some .absent) := by
  have here := tracks path
  unfold preflightDelete at passed
  split at passed
  next unknown =>
    rw [unknown] at here
    split at passed
    · cases passed
    next there =>
      split at passed
      · cases passed
      next notDir =>
        cases passed
        refine ⟨?_, by simp [unknown], rfl⟩
        rw [here]
        cases held : disk.node path with
        | none => simp [FileTree.present, held] at there
        | some node =>
          cases node with
          | file bytes => exact ⟨bytes, rfl⟩
          | dir => exact absurd (FileTree.isDir_iff.mpr held) notDir
  next => cases passed
  next => cases passed
  next file =>
    rw [file] at here
    cases passed
    exact ⟨here, by simp [file], rfl⟩

section Step

variable {item : PlannedPatchWrite}

theorem writeFile_planned {path : FilePath} {text : Text} (tracks : Tracks disk now states)
    (foresees : Foresees codec now states virtualContent)
    (passed : preflightWrite codec disk states path text = .ok after) :
    ∃ written, writeFile codec now path text = .ok written ∧ Tracks disk written after ∧
      Foresees codec written after (Function.update virtualContent path (some (some text))) := by
  obtain ⟨bytes, name, parent, encoded, rfl, clear, notDir, diskNotDir, rfl⟩ := preflightWrite_ok passed
  have noFile : ∀ ancestor, ancestor <:+ parent → ¬now.isFile ancestor := by
    intro ancestor suffix held
    obtain ⟨bytes, held⟩ := FileTree.isFile_iff.mp held
    obtain ⟨notFile, notHeld⟩ := clear ancestor suffix
    have here := tracks ancestor
    cases state : states ancestor with
    | none =>
      rw [state] at here
      exact notHeld state (FileTree.isFile_iff.mpr ⟨bytes, here ▸ held⟩)
    | some known =>
      cases known with
      | file => exact notFile state
      | dir => simp [state, held] at here
      | absent => simp [state, held] at here
  have leaf : now.node (name :: parent) ≠ some .dir := by
    intro dir
    have here := tracks (name :: parent)
    cases state : states (name :: parent) with
    | none =>
      rw [state] at here
      exact diskNotDir state (FileTree.isDir_iff.mpr (here ▸ dir))
    | some known =>
      cases known with
      | file => simp [state, dir] at here
      | dir => exact notDir state
      | absent => simp [state, dir] at here
  obtain ⟨inner, made, nodes⟩ := FileTree.makeDirs_succeeds parent noFile
  have apart := FileTree.not_cons_suffix name parent
  have inDir : inner.node parent = some .dir := by rw [nodes, if_pos List.suffix_rfl]
  have free : inner.node (name :: parent) ≠ some .dir := by rwa [nodes, if_neg apart]
  obtain ⟨written, wrote⟩ := FileTree.write_succeeds bytes inDir free
  have node : ∀ other, written.node other = if other = name :: parent then some (.file bytes)
      else if other <:+ parent then some .dir else now.node other := by
    intro other
    rw [FileTree.node_write wrote, Function.update_apply, nodes]
  refine ⟨written, ?_, fun other => ?_, fun other => ?_⟩
  · rw [writeFile, List.tail_cons, made]
    dsimp only
    rw [encoded]
    dsimp only
    rw [wrote]
  · have here := tracks other
    dsimp only
    rw [node]
    by_cases own : other = name :: parent
    · simp [own]
    · by_cases above : other <:+ parent
      · simp [own, above]
      · simpa only [if_neg own, if_neg above] using here
  · have here := foresees other
    dsimp only
    rw [node]
    by_cases own : other = name :: parent
    · simp [own, codec.exact text bytes encoded]
    · rw [Function.update_of_ne own]
      by_cases above : other <:+ parent
      · simp only [if_neg own, if_pos above]
        cases known : virtualContent other with
        | none => simp
        | some content =>
          cases content with
          | none => simp
          | some text =>
            rw [known] at here
            exact absurd here.1 (clear other above).1
      · simpa only [if_neg own, if_neg above] using here

theorem removeFile_planned {path : FilePath} (tracks : Tracks disk now states)
    (foresees : Foresees codec now states virtualContent)
    (passed : preflightDelete disk states path = .ok after) :
    ∃ removed, removeFile now path = .ok removed ∧ Tracks disk removed after ∧
      Foresees codec removed after (Function.update virtualContent path (some none)) := by
  obtain ⟨⟨bytes, held⟩, -, rfl⟩ := preflightDelete_ok tracks passed
  obtain ⟨removed, unlinked⟩ := FileTree.unlink_succeeds held
  have node := FileTree.node_unlink unlinked
  refine ⟨removed, by rw [removeFile, unlinked], fun other => ?_, fun other => ?_⟩
  · have here := tracks other
    rw [node]
    by_cases own : other = path
    · simp [own]
    · simpa only [Function.update_of_ne own] using here
  · have here := foresees other
    rw [node]
    by_cases own : other = path
    · simp [own]
    · simpa only [Function.update_of_ne own] using here

theorem commitItem_planned (tracks : Tracks disk now states)
    (foresees : Foresees codec now states virtualContent)
    (passed : preflightItem codec disk states item = .ok after) :
    ∃ written, commitItem codec now item = .ok written ∧ Tracks disk written after ∧
      Foresees codec written after
        (Function.update virtualContent item.resolved (some item.afterContent)) := by
  unfold preflightItem at passed
  unfold commitItem
  cases content : item.afterContent with
  | none =>
    rw [content] at passed
    exact removeFile_planned tracks foresees passed
  | some text =>
    rw [content] at passed
    exact writeFile_planned tracks foresees passed

theorem preflightItem_notDir (tracks : Tracks disk now states)
    (passed : preflightItem codec disk states item = .ok after) : states item.resolved ≠ some .dir := by
  unfold preflightItem at passed
  split at passed
  · exact (preflightDelete_ok tracks passed).2.1
  · obtain ⟨_, _, _, -, -, -, notDir, -, -⟩ := preflightWrite_ok passed
    exact notDir

theorem node_untouched {path : FilePath} (tracks : Tracks disk now states)
    (foresees : Foresees codec now states virtualContent) (untouched : virtualContent path = none)
    (notDir : states path ≠ some .dir) : now.node path = disk.node path := by
  have here := foresees path
  rw [untouched] at here
  have unknown : states path = none := here.resolve_right notDir
  have same := tracks path
  rwa [unknown] at same

theorem node_touched {path : FilePath} {content : Option Text} (tracks : Tracks disk now states)
    (foresees : Foresees codec now states virtualContent) (touched : virtualContent path = some content)
    (notDir : states path ≠ some .dir) :
    match content with
    | none => now.node path = none
    | some text => ∃ bytes, now.node path = some (.file bytes) ∧ codec.decode bytes = some text := by
  have here := foresees path
  rw [touched] at here
  cases content with
  | none =>
    have absent : states path = some .absent := here.resolve_right notDir
    have gone := tracks path
    rwa [absent] at gone
  | some text => exact here.2

theorem applyOp_planned {op : PatchOp} (tracks : Tracks disk now states)
    (foresees : Foresees codec now states virtualContent)
    (planned : planOp codec validatePath disk virtualContent op = .ok item)
    (passed : preflightItem codec disk states item = .ok after) :
    applyOp codec validatePath now op = commitItem codec now item := by
  have notDir := preflightItem_notDir tracks passed
  rw [planOp] at planned
  rw [applyOp]
  cases valid : validatePath op.path with
  | error raised =>
    rw [valid] at planned
    cases planned
  | ok resolved =>
    rw [valid] at planned
    simp only [bind, Except.bind] at planned ⊢
    cases known : virtualContent resolved with
    | none =>
      rw [known] at planned
      cases op with
      | addFile path content =>
        simp only [planAdd] at planned
        split at planned
        · cases planned
        next free =>
          cases planned
          have same := node_untouched tracks foresees known notDir
          have absent : now.node resolved = none := by
            rw [same]
            simpa [FileTree.present] using free
          simp only [absent]
          rfl
      | updateFile path hunks =>
        simp only [planUpdate] at planned
        cases there : disk.present resolved with
        | false =>
          rw [there] at planned
          cases planned
        | true =>
          rw [there] at planned
          cases read : readText codec disk resolved with
          | error raised =>
            rw [read] at planned
            cases planned
          | ok text =>
            rw [read] at planned
            cases applied : applyUpdateContent text hunks with
            | error raised =>
              simp only [bind, Except.bind, applied] at planned
              cases planned
            | ok updated =>
              simp only [bind, Except.bind, applied] at planned
              cases planned
              have same := node_untouched tracks foresees known notDir
              obtain ⟨node, held⟩ : ∃ node, now.node resolved = some node := by
                rw [same]
                exact Option.isSome_iff_exists.mp there
              have again : readText codec now resolved = .ok text := by
                rw [← read, readText, readText, same]
              simp only [held, again, applied]
              rfl
      | deleteFile path =>
        simp only [planDelete] at planned
        split at planned
        next there =>
          cases planned
          have same := node_untouched tracks foresees known notDir
          obtain ⟨node, held⟩ : ∃ node, now.node resolved = some node := by
            rw [same]
            exact Option.isSome_iff_exists.mp there
          simp only [held]
          rfl
        · cases planned
    | some content =>
      rw [known] at planned
      cases content with
      | none =>
        cases op with
        | addFile path content =>
          cases planned
          have absent : now.node resolved = none := node_touched tracks foresees known notDir
          simp only [absent]
          rfl
        | updateFile path hunks => cases planned
        | deleteFile path => cases planned
      | some current =>
        cases op with
        | addFile path content => cases planned
        | updateFile path hunks =>
          simp only [planTouched, bind, Except.bind] at planned
          cases applied : applyUpdateContent current hunks with
          | error raised =>
            rw [applied] at planned
            cases planned
          | ok updated =>
            rw [applied] at planned
            cases planned
            obtain ⟨bytes, held, decoded⟩ : ∃ bytes, now.node resolved = some (.file bytes) ∧
              codec.decode bytes = some current := node_touched tracks foresees known notDir
            have read : readText codec now resolved = .ok current := by
              simp only [readText, held, decoded]
            simp only [held, read, applied]
            rfl
        | deleteFile path =>
          cases planned
          obtain ⟨bytes, held, -⟩ : ∃ bytes, now.node resolved = some (.file bytes) ∧
            codec.decode bytes = some current := node_touched tracks foresees known notDir
          simp only [held]
          rfl

end Step

theorem applyEach_planned {ops : List PatchOp} {planned : List PlannedPatchWrite} (counts : PatchCounts)
    (tracks : Tracks disk now states) (foresees : Foresees codec now states virtualContent)
    (plan : planFrom codec validatePath disk virtualContent ops = .ok planned)
    (passed : preflightFrom codec disk states planned = .ok after) :
    ∃ written counted, commitFrom codec now counts planned = (written, .ok counted) ∧
      applyEach codec validatePath now ops = .ok written := by
  induction ops generalizing planned now states virtualContent counts with
  | nil =>
    cases plan
    exact ⟨now, counts, rfl, rfl⟩
  | cons op rest ih =>
    rw [planFrom] at plan
    cases first : planOp codec validatePath disk virtualContent op with
    | error raised =>
      rw [first] at plan
      cases plan
    | ok item =>
      rw [first] at plan
      cases later : planFrom codec validatePath disk
          (Function.update virtualContent item.resolved (some item.afterContent)) rest with
      | error raised =>
        simp only [bind, Except.bind, later] at plan
        cases plan
      | ok items =>
        simp only [bind, Except.bind, later] at plan
        cases plan
        rw [preflightFrom] at passed
        cases checked : preflightItem codec disk states item with
        | error raised =>
          rw [checked] at passed
          cases passed
        | ok inner =>
          rw [checked] at passed
          obtain ⟨written, committed, tracksNext, foreseesNext⟩ :=
            commitItem_planned tracks foresees checked
          obtain ⟨last, counted, commits, applies⟩ :=
            ih (counts.record item) tracksNext foreseesNext later passed
          refine ⟨last, counted, ?_, ?_⟩
          · rw [commitFrom, committed]
            exact commits
          · rw [applyEach, applyOp_planned tracks foresees first checked, committed]
            exact applies

/-- A patch that is planned and passes the preflight is written as a whole, with the effect of its
operations one after the other. One that does not is not written at all. -/
theorem applyOps_atomic (codec : Codec Bytes) (validatePath : Text → Except PatchError FilePath)
    (disk : FileTree Bytes) (ops : List PatchOp) :
    (∀ planned, planOps codec validatePath disk ops = .ok planned →
      preflightPlannedWrites codec disk planned = .ok () →
      ∃ written counts, commitPlannedWrites codec disk planned = (written, .ok counts) ∧
        applyOps codec validatePath disk ops = (written, .ok (counts, planned)) ∧
        applyEach codec validatePath disk ops = .ok written) ∧
    (∀ raised, planOps codec validatePath disk ops = .error raised →
      applyOps codec validatePath disk ops = (disk, .error raised)) ∧
    (∀ planned raised, planOps codec validatePath disk ops = .ok planned →
      preflightPlannedWrites codec disk planned = .error raised →
      applyOps codec validatePath disk ops = (disk, .error raised)) := by
  refine ⟨fun planned plan passed => ?_, fun raised plan => ?_, fun planned raised plan refused => ?_⟩
  · cases checked : preflightFrom codec disk (fun _ => none) planned with
    | error raised =>
      rw [preflightPlannedWrites, checked] at passed
      cases passed
    | ok after =>
      have tracks : Tracks disk disk (fun _ => none) := fun _ => rfl
      have foresees : Foresees codec disk (fun _ => none) (fun _ => none) := fun _ => .inl rfl
      obtain ⟨written, counts, commits, applies⟩ := applyEach_planned {} tracks foresees plan checked
      have committed : commitPlannedWrites codec disk planned = (written, .ok counts) := by
        rw [commitPlannedWrites, passed]
        exact commits
      refine ⟨written, counts, committed, ?_, applies⟩
      rw [applyOps, plan]
      dsimp only
      rw [committed]
      rfl
  · rw [applyOps, plan]
  · rw [applyOps, plan]
    dsimp only
    rw [commitPlannedWrites, refused]
    rfl

def plainCodec : Codec Text where
  encode := some
  decode := some
  exact _ _ same := same.symm

def splitSlashes (path : Text) : Except PatchError FilePath :=
  .ok ((path.splitOn '/').reverse.map String.ofList)

-- A file added, edited, deleted and added again below what was a file.
def rewritten : List PatchOp :=
  [.addFile "notes".toList "one\n".toList,
   .updateFile "notes".toList
    [{ oldStart := 1, oldCount := 1, newStart := 1, newCount := 1, lines := ["-one".toList, "+two".toList] }],
   .deleteFile "notes".toList,
   .addFile "notes/today".toList "three".toList]

def rewrittenWrites : List PlannedPatchWrite :=
  [⟨"notes".toList, ["notes"], some "one\n".toList, .applyPatchAdd⟩,
   ⟨"notes".toList, ["notes"], some "two\n".toList, .applyPatchUpdate⟩,
   ⟨"notes".toList, ["notes"], none, .applyPatchDelete⟩,
   ⟨"notes/today".toList, ["today", "notes"], some "three".toList, .applyPatchAdd⟩]

theorem applyOps_atomic_rewritten : ∃ written counts, applyOps plainCodec splitSlashes .onlyRoot rewritten =
        (written, .ok (counts, rewrittenWrites)) ∧
      applyEach plainCodec splitSlashes .onlyRoot rewritten = .ok written := by
  obtain ⟨written, counts, -, whole, each⟩ :=
    (applyOps_atomic plainCodec splitSlashes .onlyRoot rewritten).1 rewrittenWrites
      (by decide) (by decide)
  exact ⟨written, counts, whole, each⟩

end OpenSquilla.Patches
