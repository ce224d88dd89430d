import Piteka.Files.LocalEvidence
import Piteka.Application.Scenario

/-!
# Concurrent writes of one piece of evidence

Writers of the same bytes share the temporary name, so the rename of one may take
the file that another is about to rename. What is in the store is right in every
run: a blob stays and has the bytes of its address. What a writer returns is right
exactly if its rename finds the temporary file.
-/
namespace Piteka.Safety

set_option autoImplicit false

open Piteka.Interleaving Piteka.Storage Piteka.Files

inductive EvidenceFileCall where
  | put (bytes : Array UInt8)
  | get (digest : ContentDigest)

abbrev EvidenceFileCall.Result : EvidenceFileCall → Type
  | .put _ => StorageResult ContentDigest
  | .get _ => StorageResult (Option (Array UInt8))

abbrev FilePathway := List ((c : FileCall) × c.Answer)

section
variable (rt : Runtime) (processId : Nat) (store : LocalEvidenceStore)

def EvidenceFileCall.program : (c : EvidenceFileCall) → Program FileCall FileCall.Answer c.Result
  | .put bytes => (store.put rt processId bytes).run
  | .get digest => (store.get rt digest).run

/-- How far a `put` has come, by the calls that have been answered. -/
inductive PutPath (b : Array UInt8) :
    FilePathway → Program FileCall FileCall.Answer (StorageResult ContentDigest) → Prop
  | start (k : _) : PutPath b [] (.call (.exists (store.blobPath (.of rt b))) k)
  | present :
      PutPath b [⟨.exists (store.blobPath (.of rt b)), true⟩] (.ret (.ok (.of rt b)))
  | absent (k : _) :
      PutPath b [⟨.exists (store.blobPath (.of rt b)), false⟩]
        (.call (.write (store.tmpPath processId (.of rt b)) b) k)
  | unwritten (e : IoError) :
      PutPath b [⟨.exists (store.blobPath (.of rt b)), false⟩,
        ⟨.write (store.tmpPath processId (.of rt b)) b, .error e⟩] (.ret (.error e.toStorage))
  | written (k : _) :
      PutPath b [⟨.exists (store.blobPath (.of rt b)), false⟩,
        ⟨.write (store.tmpPath processId (.of rt b)) b, .ok ()⟩]
        (.call (.rename (store.tmpPath processId (.of rt b)) (store.blobPath (.of rt b))) k)
  | renamed (r : Except IoError Unit) :
      PutPath b [⟨.exists (store.blobPath (.of rt b)), false⟩,
        ⟨.write (store.tmpPath processId (.of rt b)) b, .ok ()⟩,
        ⟨.rename (store.tmpPath processId (.of rt b)) (store.blobPath (.of rt b)), r⟩]
        (.ret ((r.mapError IoError.toStorage).map fun _ => .of rt b))

variable {rt processId store}

theorem atomicWrite_blob (d : ContentDigest) (b : Array UInt8) :
    atomicWrite processId (store.blobPath d) b = (do
      writeFile (store.tmpPath processId d) b
      renameFile (store.tmpPath processId d) (store.blobPath d)) := by
  have hparent : parent (store.blobPath d) = some (store.root ++ ["blobs"]) := by
    simp [parent, LocalEvidenceStore.blobPath]
  have hname : fileName (store.blobPath d) = some d.toHex := by
    simp [fileName, LocalEvidenceStore.blobPath]
  simp only [atomicWrite, hparent, hname, LocalEvidenceStore.tmpPath, List.append_assoc,
    List.cons_append, List.nil_append]

theorem put_path {b : Array UInt8} {h : FilePathway}
    {q : Program FileCall FileCall.Answer (StorageResult ContentDigest)}
    (hf : (store.put rt processId b).run.Follows h q) : PutPath rt processId store b h q := by
  unfold LocalEvidenceStore.put at hf
  simp only [atomicWrite_blob] at hf
  rcases Program.follows_call.mp hf with ⟨rfl, rfl⟩ | ⟨found, t, rfl, ht⟩
  · exact .start _
  cases found with
  | true =>
    obtain ⟨rfl, rfl⟩ := Program.follows_ret.mp ht
    exact .present
  | false =>
    rcases Program.follows_call.mp ht with ⟨rfl, rfl⟩ | ⟨w, t, rfl, hw⟩
    · exact .absent _
    cases w with
    | error e =>
      obtain ⟨rfl, rfl⟩ := Program.follows_ret.mp hw
      exact .unwritten e
    | ok _ =>
      rcases Program.follows_call.mp hw with ⟨rfl, rfl⟩ | ⟨r, t, rfl, hr⟩
      · exact .written _
      cases r with
      | error e =>
        obtain ⟨rfl, rfl⟩ := Program.follows_ret.mp hr
        exact .renamed (.error e)
      | ok _ =>
        obtain ⟨rfl, rfl⟩ := Program.follows_ret.mp hr
        exact .renamed (.ok ())

theorem get_path {d : ContentDigest} {h : FilePathway}
    {q : Program FileCall FileCall.Answer (StorageResult (Option (Array UInt8)))}
    (hf : (store.get rt d).run.Follows h q) :
    h = [] ∨ ∃ x, h = [⟨.read (store.blobPath d), x⟩] ∧
      q = .ret (LocalEvidenceStore.verified rt d x) := by
  rcases Program.follows_call.mp hf with ⟨rfl, _⟩ | ⟨x, t, rfl, ht⟩
  · exact Or.inl rfl
  · obtain ⟨rfl, rfl⟩ := Program.follows_ret.mp ht
    exact Or.inr ⟨x, rfl, rfl⟩

variable (rt processId store) in
/-- The calls that a `put` or a `get` can make. -/
inductive Makes (c : EvidenceFileCall) : FileCall → Prop
  | exists (path : FilePath) : Makes c (.exists path)
  | write (b : Array UInt8) (hc : c = .put b) :
      Makes c (.write (store.tmpPath processId (.of rt b)) b)
  | rename (b : Array UInt8) (hc : c = .put b) :
      Makes c (.rename (store.tmpPath processId (.of rt b)) (store.blobPath (.of rt b)))
  | read (path : FilePath) : Makes c (.read path)

theorem makes_of_next {c : EvidenceFileCall} {h : FilePathway} {op : FileCall}
    (hn : (c.program rt processId store).Next h op) : Makes rt processId store c op := by
  obtain ⟨k, hf⟩ := hn
  cases c with
  | put b =>
    cases put_path hf with
    | start => exact .exists _
    | absent => exact .write b rfl
    | written => exact .rename b rfl
  | get d =>
    rcases Program.follows_call.mp hf with ⟨_, hq⟩ | ⟨x, t, _, ht⟩
    · cases hq
      exact .read _
    · cases (Program.follows_ret.mp ht).2

end

/-! ## What is in the store -/

section
variable {ι : Type} [DecidableEq ι] {rt : Runtime} {processId : Nat} {store : LocalEvidenceStore}

abbrev FileEntry (ι : Type) := Entry ι FileCall.Answer FileSystem

/-- A run of `put` and `get` calls of one process on a store that is empty at the start. -/
abbrev EvidenceRun (rt : Runtime) (processId : Nat) (store : LocalEvidenceStore)
    (calls : ι → EvidenceFileCall) (log : List (FileEntry ι)) (s : FileSystem)
    (p : (i : ι) → Program FileCall FileCall.Answer (calls i).Result) : Prop :=
  Run (Atomic FileSystem.step) .empty (fun i => (calls i).program rt processId store) log s p

/-- Every blob and every temporary file has the bytes of a `put` with its address. -/
structure Contents (rt : Runtime) (processId : Nat) (store : LocalEvidenceStore)
    (calls : ι → EvidenceFileCall) (fs : FileSystem) : Prop where
  blobs : ∀ d c, fs.lookup (store.blobPath d) = some c →
    ContentDigest.of rt c = d ∧ ∃ i, calls i = .put c
  temps : ∀ d c, fs.lookup (store.tmpPath processId d) = some c →
    ContentDigest.of rt c = d ∧ ∃ i, calls i = .put c

variable {calls : ι → EvidenceFileCall} {log : List (FileEntry ι)} {s : FileSystem}
  {p : (i : ι) → Program FileCall FileCall.Answer (calls i).Result}

theorem lookup_insert (fs : FileSystem) (path path' : FilePath) (bytes : Array UInt8) :
    FileSystem.lookup ⟨fs.files.insert path bytes⟩ path' =
      if path' = path then some bytes else fs.lookup path' := by
  unfold FileSystem.lookup
  split
  · next h => rw [h, AList.lookup_insert]
  · next h => exact AList.lookup_insert_ne h

theorem lookup_moved (fs : FileSystem) (source target path : FilePath) (bytes : Array UInt8) :
    FileSystem.lookup ⟨(fs.files.erase source).insert target bytes⟩ path =
      if path = target then some bytes else if path = source then none else fs.lookup path := by
  unfold FileSystem.lookup
  split
  · next h => rw [h, AList.lookup_insert]
  · next h =>
    rw [AList.lookup_insert_ne h]
    split
    · next hs => rw [hs, AList.lookup_erase]
    · next hs => exact AList.lookup_erase_ne hs

theorem read_same {fs fs' : FileSystem} {path : FilePath} {x : Except IoError (Array UInt8)}
    (hx : fs.step (.read path) = (x, fs')) : fs' = fs := by
  unfold FileSystem.step at hx
  dsimp only at hx
  split at hx <;> exact (Prod.mk.inj hx).2.symm

omit [DecidableEq ι] in
theorem contents_step {fs fs' : FileSystem} {i : ι} {op : FileCall} {a : op.Answer}
    (hc : Contents rt processId store calls fs) (hm : Makes rt processId store (calls i) op)
    (hx : fs.step op = (a, fs')) : Contents rt processId store calls fs' := by
  cases hm with
  | «exists» path =>
    obtain ⟨_, rfl⟩ := Prod.mk.inj hx
    exact hc
  | read path =>
    rw [read_same hx]
    exact hc
  | write b hb =>
    obtain ⟨_, rfl⟩ := Prod.mk.inj hx
    constructor
    · intro d c h
      rw [lookup_insert, if_neg (store.blobPath_ne_tmpPath processId d _)] at h
      exact hc.blobs d c h
    · intro d c h
      rw [lookup_insert] at h
      split at h
      · next hd =>
        obtain rfl := Option.some.inj h
        exact ⟨(LocalEvidenceStore.tmpPath_inj hd).symm, i, hb⟩
      · exact hc.temps d c h
  | rename b hb =>
    unfold FileSystem.step at hx
    dsimp only at hx
    split at hx
    · obtain ⟨_, rfl⟩ := Prod.mk.inj hx
      exact hc
    · next c' hc' =>
      obtain ⟨_, rfl⟩ := Prod.mk.inj hx
      constructor
      · intro d c h
        rw [lookup_moved] at h
        split at h
        · next hd =>
          obtain rfl := Option.some.inj h
          rw [LocalEvidenceStore.blobPath_inj hd]
          exact hc.temps _ _ hc'
        · rw [if_neg (store.blobPath_ne_tmpPath processId d _)] at h
          exact hc.blobs d c h
      · intro d c h
        rw [lookup_moved, if_neg (store.blobPath_ne_tmpPath processId _ d).symm] at h
        split at h
        · cases h
        · exact hc.temps d c h

theorem evidence_contents (run : EvidenceRun rt processId store calls log s p) :
    Contents rt processId store calls s := by
  refine run.invariant (I := fun _ s => Contents rt processId store calls s) ?_ ?_
  · constructor
    · intro d c h
      cases h
    · intro d c h
      cases h
  · intro _ _ _ _ _ _ _ _ ih hn hx
    exact contents_step ih (makes_of_next hn) hx

/-- A blob that is there stays there. -/
theorem blob_kept {fs fs' : FileSystem} {c : EvidenceFileCall} {op : FileCall} {a : op.Answer}
    (hm : Makes rt processId store c op) (hx : fs.step op = (a, fs')) {d : ContentDigest}
    (hd : (fs.lookup (store.blobPath d)).isSome) : (fs'.lookup (store.blobPath d)).isSome := by
  cases hm with
  | «exists» path =>
    obtain ⟨_, rfl⟩ := Prod.mk.inj hx
    exact hd
  | read path => rwa [read_same hx]
  | write b hb =>
    obtain ⟨_, rfl⟩ := Prod.mk.inj hx
    rwa [lookup_insert, if_neg (store.blobPath_ne_tmpPath processId d _)]
  | rename b hb =>
    unfold FileSystem.step at hx
    dsimp only at hx
    split at hx
    · obtain ⟨_, rfl⟩ := Prod.mk.inj hx
      exact hd
    · obtain ⟨_, rfl⟩ := Prod.mk.inj hx
      rw [lookup_moved]
      split
      · rfl
      · rwa [if_neg (store.blobPath_ne_tmpPath processId d _)]

theorem entry_makes (run : EvidenceRun rt processId store calls log s p) {e : FileEntry ι}
    (he : e ∈ log) : Makes rt processId store (calls e.caller) e.call.1 := by
  obtain ⟨l₁, l₂, rfl⟩ := List.append_of_mem he
  exact makes_of_next run.at_entry.2

/-! ## What the callers return -/

/-- Every `put` that has returned returned the address of its bytes, and every `get` of that address
that reads after it finds exactly the bytes. -/
structure IdempotentPuts (rt : Runtime) (processId : Nat) (store : LocalEvidenceStore)
    (calls : ι → EvidenceFileCall) (log : List (FileEntry ι)) : Prop where
  stored : ∀ i b r, calls i = .put b →
    (store.put rt processId b).run.Returns (history i log) r → r = .ok (.of rt b)
  found : ∀ l₁ f l₂, log = l₁ ++ f :: l₂ → ∀ i b r, calls i = .put b →
    (store.put rt processId b).run.Returns (history i l₁) r →
    calls f.caller = .get (.of rt b) →
    (store.get rt (.of rt b)).run.Returns (history f.caller log) (.ok (some b))

/-- If the entry is a rename, its temporary file is there. -/
def FindsTemp (e : FileEntry ι) : Prop :=
  ∀ source target, e.call.1 = .rename source target → (e.before.lookup source).isSome

theorem rename_answer {fs fs' : FileSystem} {source target : FilePath} {r : Except IoError Unit}
    (hx : fs.step (.rename source target) = (r, fs')) :
    ((fs.lookup source).isSome ∧ r = .ok () ∧ (fs'.lookup target).isSome) ∨
      fs.lookup source = none ∧ r = .error .notFound := by
  unfold FileSystem.step at hx
  dsimp only at hx
  split at hx
  · next h =>
    obtain ⟨rfl, _⟩ := Prod.mk.inj hx
    exact Or.inr ⟨h, rfl⟩
  · next h =>
    obtain ⟨rfl, rfl⟩ := Prod.mk.inj hx
    refine Or.inl ⟨by rw [h]; rfl, rfl, ?_⟩
    rw [lookup_moved, if_pos rfl]
    rfl

/-- A `put` whose rename has found the temporary file has returned the address, and the blob is
there. -/
theorem put_returned (run : EvidenceRun rt processId store calls log s p)
    (htemps : ∀ e ∈ log, FindsTemp e) {i : ι} {b : Array UInt8} {r : StorageResult ContentDigest}
    (hr : (store.put rt processId b).run.Returns (history i log) r) :
    r = .ok (.of rt b) ∧
      ∃ e ∈ log, (e.after.lookup (store.blobPath (.of rt b))).isSome := by
  have hpath := put_path hr
  generalize hh : history i log = h at hpath
  have executed : ∀ c ∈ h, ∃ e ∈ log, e.call = c ∧ e.before.step c.1 = (c.2, e.after) := by
    intro c hc
    obtain ⟨e, he, _, hcall, hx⟩ := run.executed (hh ▸ hc)
    exact ⟨e, he, hcall, hx⟩
  cases hpath with
  | present =>
    obtain ⟨e, he, _, hx⟩ := executed _ List.mem_cons_self
    obtain ⟨hfound, hsame⟩ := Prod.mk.inj hx
    exact ⟨rfl, e, he, hsame ▸ hfound⟩
  | unwritten error =>
    obtain ⟨e, _, _, hx⟩ := executed _ (List.mem_cons_of_mem _ List.mem_cons_self)
    cases (Prod.mk.inj hx).1
  | renamed x =>
    obtain ⟨e, he, hcall, hx⟩ :=
      executed _ (List.mem_cons_of_mem _ (List.mem_cons_of_mem _ List.mem_cons_self))
    rcases rename_answer hx with ⟨_, rfl, hblob⟩ | ⟨hnone, _⟩
    · exact ⟨rfl, e, he, hblob⟩
    · have htemp := htemps e he _ _ (congrArg Sigma.fst hcall)
      rw [hnone] at htemp
      cases htemp

omit [DecidableEq ι] in
/-- A `get` that reads a blob of the right address returns its bytes. -/
theorem get_returned {f : FileEntry ι} {b : Array UInt8} {d : ContentDigest} {h : FilePathway}
    {q : Program FileCall FileCall.Answer (StorageResult (Option (Array UInt8)))}
    (hf : (store.get rt d).run.Follows h q) (hmem : f.call ∈ h)
    (hx : f.before.step f.call.1 = (f.call.2, f.after))
    (hb : f.before.lookup (store.blobPath d) = some b) (hd : ContentDigest.of rt b = d) :
    (store.get rt d).run.Returns h (.ok (some b)) := by
  rcases get_path hf with rfl | ⟨x, rfl, rfl⟩
  · cases hmem
  · have hcall : f.call = ⟨.read (store.blobPath d), x⟩ := List.mem_singleton.mp hmem
    rw [hcall] at hx
    simp only [FileSystem.step, hb] at hx
    obtain rfl := (Prod.mk.inj hx).1
    have hv : LocalEvidenceStore.verified rt d (.ok b) = .ok (some b) := by
      simp [LocalEvidenceStore.verified, hd]
    rw [hv] at hf
    exact hf

/-- A `put` whose rename has not found the temporary file has returned an error. -/
theorem put_failed {b : Array UInt8} {h : FilePathway}
    {q : Program FileCall FileCall.Answer (StorageResult ContentDigest)}
    {source target : FilePath} {e : IoError}
    (hf : (store.put rt processId b).run.Follows h q)
    (hmem : ⟨.rename source target, .error e⟩ ∈ h) :
    (store.put rt processId b).run.Returns h (.error e.toStorage) := by
  have hpath := put_path hf
  cases hpath with
  | start => cases hmem
  | present => simp at hmem
  | absent => simp at hmem
  | unwritten => simp at hmem
  | written => simp at hmem
  | renamed x =>
    simp only [List.mem_cons, List.not_mem_nil, or_false] at hmem
    rcases hmem with hc | hc | hc
    · cases hc
    · cases hc
    · cases hc
      exact hf

/-- Behind a `put` that has returned, the blob of its address has its bytes. -/
theorem blob_behind_put (run : EvidenceRun rt processId store calls log s p)
    (hinj : ∀ i j b c, calls i = .put b → calls j = .put c → rt.sha256 b = rt.sha256 c → b = c)
    (htemps : ∀ e ∈ log, FindsTemp e) {i : ι} {b : Array UInt8} {r : StorageResult ContentDigest}
    (hi : calls i = .put b)
    (hr : (store.put rt processId b).run.Returns (history i log) r) :
    s.lookup (store.blobPath (.of rt b)) = some b := by
  obtain ⟨_, e, he, hblob⟩ := put_returned run htemps hr
  obtain ⟨l₁, l₂, rfl⟩ := List.append_of_mem he
  have hsome : (s.lookup (store.blobPath (.of rt b))).isSome :=
    run.linked.around.2.keeps
      (Q := fun fs => (fs.lookup (store.blobPath (.of rt b))).isSome)
      (fun f hf => by
        have hf' : f ∈ l₁ ++ e :: l₂ := List.mem_append_right _ (List.mem_cons_of_mem e hf)
        exact blob_kept (entry_makes run hf') (run.exec_of_mem hf'))
      hblob
  obtain ⟨c, hc⟩ := Option.isSome_iff_exists.mp hsome
  obtain ⟨hof, j, hj⟩ := (evidence_contents run).blobs _ _ hc
  rw [hc, hinj j i c b hj hi (congrArg ContentDigest.bytes hof)]

/-- In every run the store is idempotent for its callers exactly if every rename finds its temporary
file. Of SHA-256 only this is used: the byte strings that the run puts do not collide. -/
theorem puts_idempotent_iff (run : EvidenceRun rt processId store calls log s p)
    (hinj : ∀ i j b c, calls i = .put b → calls j = .put c → rt.sha256 b = rt.sha256 c → b = c) :
    IdempotentPuts rt processId store calls log ↔ ∀ e ∈ log, FindsTemp e := by
  constructor
  · intro h e he source target hop
    have hm := entry_makes run he
    have hmem := mem_history.mpr ⟨e, he, rfl, rfl⟩
    have hx := run.exec_of_mem he
    have hf := run.follows e.caller
    obtain ⟨i, ⟨op, r⟩, fs, fs'⟩ := e
    obtain rfl : op = .rename source target := hop
    rcases rename_answer hx with ⟨hsome, _⟩ | ⟨_, rfl⟩
    · exact hsome
    exfalso
    generalize hc : calls i = c at hm
    cases hm with
    | rename b hb =>
      have hstored := h.stored i b (.error (IoError.toStorage .notFound)) (hc.trans hb)
      revert hf
      generalize p i = q
      revert q
      rw [hc, hb]
      intro q hf
      cases hstored (put_failed hf hmem)
  · intro htemps
    constructor
    · intro i b r _ hr
      exact (put_returned run htemps hr).1
    · rintro l₁ f l₂ rfl i b r hi hr hget
      obtain ⟨p', run'⟩ := run.at_entry.1
      have htemps' : ∀ e ∈ l₁, FindsTemp e :=
        fun e he => htemps e (List.mem_append_left _ he)
      have hblob := blob_behind_put run' hinj htemps' hi hr
      have hmem : f.call ∈ history f.caller (l₁ ++ f :: l₂) :=
        mem_history.mpr ⟨f, by simp, rfl, rfl⟩
      have hx := run.exec_of_mem (e := f) (by simp)
      have hf := run.follows f.caller
      revert hf
      generalize p f.caller = q
      revert q
      rw [hget]
      intro q hf
      exact get_returned hf hmem hx hblob rfl

end

/-! Two writers of the same bytes both find no blob and both write the temporary file. The rename of
the first moves it away. -/

def sharedTempCalls : Application.Pair → EvidenceFileCall := fun _ => .put #[]

def sharedTempStart : Snapshot Application.Pair FileCall.Answer FileSystem
    fun i => (sharedTempCalls i).Result :=
  ⟨[], .empty, fun i => (sharedTempCalls i).program Application.sampleRuntime 1 ⟨["data"]⟩⟩

def sharedTemp : Snapshot Application.Pair FileCall.Answer FileSystem
    fun i => (sharedTempCalls i).Result :=
  sharedTempStart.play (fun _ : Unit => FileSystem.step)
    [(.first, ()), (.second, ()), (.first, ()), (.second, ()), (.first, ()), (.second, ())]

theorem sharedTemp_run :
    EvidenceRun Application.sampleRuntime 1 ⟨["data"]⟩ sharedTempCalls sharedTemp.log
      sharedTemp.state sharedTemp.pool :=
  play_run (c := sharedTempStart) (fun _ _ _ => rfl) .start _

theorem sharedTemp_second :
    sharedTemp.pool .second = .ret (.error (IoError.toStorage .notFound)) := rfl

theorem sharedTemp_returns :
    (LocalEvidenceStore.put Application.sampleRuntime 1 ⟨["data"]⟩ #[]).run.Returns
      (history .second sharedTemp.log) (.error (IoError.toStorage .notFound)) := by
  have hf := sharedTemp_run.follows .second
  rw [sharedTemp_second] at hf
  exact hf

theorem shared_bytes {i j : Application.Pair} {b c : Array UInt8} (hb : sharedTempCalls i = .put b)
    (hc : sharedTempCalls j = .put c) : b = c :=
  EvidenceFileCall.put.inj (hb.symm.trans hc)

theorem shared_temp_vanishes :
    ¬ ∀ (rt : Runtime) (processId : Nat) (store : LocalEvidenceStore)
      (calls : Application.Pair → EvidenceFileCall) (log : List (FileEntry Application.Pair))
      (s : FileSystem)
      (p : (i : Application.Pair) → Program FileCall FileCall.Answer (calls i).Result),
      EvidenceRun rt processId store calls log s p →
      (∀ i j b c, calls i = .put b → calls j = .put c → rt.sha256 b = rt.sha256 c → b = c) →
      IdempotentPuts rt processId store calls log := by
  intro h
  have hputs := h _ _ _ _ _ _ _ sharedTemp_run fun _ _ _ _ hb hc _ => shared_bytes hb hc
  cases hputs.stored .second _ _ rfl sharedTemp_returns

theorem shared_temp_missing : ¬ ∀ e ∈ sharedTemp.log, FindsTemp e := by
  intro htemps
  have hputs := (puts_idempotent_iff sharedTemp_run
    fun _ _ _ _ hb hc _ => shared_bytes hb hc).mpr htemps
  cases hputs.stored .second _ _ rfl sharedTemp_returns

end Piteka.Safety
