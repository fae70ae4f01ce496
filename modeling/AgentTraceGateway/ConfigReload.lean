import AgentTraceGateway.ConfigStore
import AgentTraceGateway.Lib.Entries

/-! # Concurrent Reloads

  `reload` may be called from several threads at once, and its steps take
  different locks: the snapshot is read, the file is loaded, the snapshot is
  swapped, and the hook writes the components one by one. No lock is held
  from one step to the next.

  The model is a step function over the store, the components and the calls
  in progress. A step is one atomic operation of one call; the file may be
  rewritten between any two of them, so what a load reads is part of the
  event. -/

namespace AgentTraceGateway

/-! ### State -/

/-- How far a call has come. -/
inductive ReloadPc where
  | called
  | taken (current : ConfigStore.Snapshot)
  | loaded (current : ConfigStore.Snapshot) (loaded : Loaded)
  | refused (err : ConfigError)
  | applying (cfg : Config) (report : ConfigStore.ReloadReport) (pending : List HotPart)
  | returned (result : Except ConfigError ConfigStore.ReloadReport)
  | panicked

/-- The process and the calls in progress. -/
structure Reloads where
  running : Running
  threads : List ReloadPc

inductive ReloadEvent where
  | call
  | take (i : Nat)
  | load (i : Nat) (file : Except String Bytes)
  | swap (i : Nat) (now_ms elapsed_ms : Nat)
  | fail (i : Nat)
  | apply (i : Nat)
  | ret (i : Nat)

namespace Reloads

/-- The snapshot in force. -/
def inner (s : Reloads) : ConfigStore.Snapshot := s.running.config_store.inner

/-- Call `i` moves on. -/
def at_pc (s : Reloads) (i : Nat) (pc : ReloadPc) : Reloads :=
  { s with threads := s.threads.set i pc }

end Reloads

/-! ### Steps -/

section reloads

variable (bench : Bool) (debug : String → String) (sha256 : Bytes → Digest)
  (parse_toml : String → Except (Nat × Nat × String) Config)

/-- One step of one call. -/
def reload_step (s : Reloads) : ReloadEvent → Option Reloads
  | .call => some { s with threads := s.threads ++ [.called] }
  | .take i =>
    match s.threads[i]? with
    | some .called => some (s.at_pc i (.taken s.inner))
    | _ => none
  | .load i file =>
    match s.threads[i]? with
    | some (.taken current) =>
      match load bench debug sha256 parse_toml current.path file with
      | .ok loaded => some (s.at_pc i (.loaded current loaded))
      | .error err => some (s.at_pc i (.refused err))
    | _ => none
  | .swap i now_ms elapsed_ms =>
    match s.threads[i]? with
    | some (.loaded current loaded) =>
      let (snapshot, report) := ConfigStore.adopt s.running.config_store.structural current loaded
        now_ms elapsed_ms
      let config_store := { s.running.config_store with inner := snapshot }
      some (({ s with running := { s.running with config_store := config_store } }).at_pc i
        (.applying snapshot.cfg report HotPart.all))
    | _ => none
  | .fail i =>
    match s.threads[i]? with
    | some (.refused err) =>
      let config_store := s.running.config_store.failed
      some (({ s with running := { s.running with config_store := config_store } }).at_pc i
        (.returned (.error err)))
    | _ => none
  | .apply i =>
    match s.threads[i]? with
    | some (.applying cfg report (part :: pending)) =>
      match part.write cfg s.running.hot with
      | some hot =>
        some (({ s with running := { s.running with hot := hot } }).at_pc i
          (.applying cfg report pending))
      | none => some (s.at_pc i .panicked)
    | _ => none
  | .ret i =>
    match s.threads[i]? with
    | some (.applying _ report []) => some (s.at_pc i (.returned (.ok report)))
    | _ => none

/-! ### One call alone -/

/-- The events of a call that no other comes between. -/
def lone_call (path : String) (call : ReloadCall) : List ReloadEvent :=
  [.call, .take 0, .load 0 call.file] ++
    match load bench debug sha256 parse_toml path call.file with
    | .ok _ => .swap 0 call.now_ms call.elapsed_ms ::
        List.replicate HotPart.all.length (.apply 0) ++ [.ret 0]
    | .error _ => [.fail 0]

/-- The hook's steps write the parts one by one. -/
theorem run_writes {cfg : Config} {report : ConfigStore.ReloadReport} {rest : List ReloadEvent}
    {config_store : ConfigStore} : ∀ (parts : List HotPart) {hot hot' : HotApply},
    parts.foldlM (HotPart.write cfg) hot = some hot' →
      run (reload_step bench debug sha256 parse_toml)
          ⟨⟨config_store, hot⟩, [.applying cfg report parts]⟩
          (List.replicate parts.length (.apply 0) ++ rest)
        = run (reload_step bench debug sha256 parse_toml)
          ⟨⟨config_store, hot'⟩, [.applying cfg report []]⟩ rest := by
  intro parts
  induction parts with
  | nil =>
    intro hot hot' h
    cases h
    rfl
  | cons part parts ih =>
    intro hot hot' h
    rw [List.foldlM_cons] at h
    obtain ⟨hot₁, hwrite, hrest⟩ := Option.bind_eq_some_iff.mp h
    rw [List.length_cons, List.replicate_succ, List.cons_append, run]
    have hstep : reload_step bench debug sha256 parse_toml
        ⟨⟨config_store, hot⟩, [.applying cfg report (part :: parts)]⟩ (.apply 0)
        = some ⟨⟨config_store, hot₁⟩, [.applying cfg report parts]⟩ := by
      simp [reload_step, hwrite, Reloads.at_pc]
    rw [hstep]
    exact ih hrest

/-- A call that runs alone does what `reload` does. -/
theorem lone_call_reloads (p : Running) (call : ReloadCall)
    (hbuild : Buildable bench debug sha256 parse_toml p.config_store.inner.path [call]) :
    (run (reload_step bench debug sha256 parse_toml) ⟨p, []⟩
        (lone_call bench debug sha256 parse_toml p.config_store.inner.path call))
      = (reload bench debug sha256 parse_toml p call).map fun (p', result) =>
          ⟨p', [.returned result]⟩ := by
  cases hload : load bench debug sha256 parse_toml p.config_store.inner.path call.file with
  | error err =>
    rw [reload_error bench debug sha256 parse_toml hload]
    simp [lone_call, hload, run, reload_step, Reloads.at_pc, Reloads.inner]
  | ok loaded =>
    have hendpoint := hbuild call (List.mem_singleton_self call) loaded hload
    obtain ⟨hot', hwrites⟩ := HotPart.write_list_isSome hendpoint HotPart.all p.hot
    have happly : p.hot.apply loaded.config = some hot' := by
      rw [HotApply.apply_eq_writes]
      exact hwrites
    simp only [lone_call, hload, reload, happly, ConfigStore.adopt, Option.map_some]
    simp only [run, reload_step, Reloads.at_pc, Reloads.inner, List.cons_append, List.nil_append,
      List.getElem?_cons_zero, List.set_cons_zero, Option.bind_some, hload, ConfigStore.adopt]
    rw [run_writes bench debug sha256 parse_toml HotPart.all hwrites]
    rfl

end reloads

/-! ### Reloads in order -/

/-- Two configurations have the same value for a part. -/
def HotPart.Agree (a b : Config) : HotPart → Prop
  | .max_bytes => max a.capture.max_bytes.toNat 1 = max b.capture.max_bytes.toNat 1
  | .caps => max a.store.max_records.toNat 1 = max b.store.max_records.toNat 1
      ∧ max a.store.max_bytes.toNat 1 = max b.store.max_bytes.toNat 1
  | .capacity => max a.stitch.capacity.toNat 1 = max b.stitch.capacity.toNat 1
  | .ttl_ms => max a.stitch.ttl_ms.toNat 1 = max b.stitch.ttl_ms.toNat 1
  | .target => build_target a.export_.otlp_endpoint = build_target b.export_.otlp_endpoint
  | .enabled => (build_target a.export_.otlp_endpoint).map Option.isSome
      = (build_target b.export_.otlp_endpoint).map Option.isSome
  | .max_inflight => max a.export_.max_inflight 1 = max b.export_.max_inflight 1

instance (a b : Config) (part : HotPart) : Decidable (part.Agree a b) :=
  match part with
  | .max_bytes | .capacity | .ttl_ms => inferInstanceAs (Decidable (_ = (_ : Nat)))
  | .caps => inferInstanceAs (Decidable (_ = (_ : Nat) ∧ _ = (_ : Nat)))
  | .target => inferInstanceAs (Decidable (_ = (_ : Option (Option FlushTarget))))
  | .enabled => inferInstanceAs (Decidable (_ = (_ : Option Bool)))
  | .max_inflight => inferInstanceAs (Decidable (_ = (_ : UInt64)))

/-- What a part holds for one configuration it holds for one that agrees. -/
theorem HotPart.holds_agree {a b : Config} {hot : HotApply} {part : HotPart}
    (hagree : part.Agree a b) (h : part.Holds a hot) : part.Holds b hot := by
  cases part with
  | max_bytes => exact h.trans hagree
  | caps => exact ⟨h.1.trans hagree.1, h.2.trans hagree.2⟩
  | capacity => exact h.trans hagree
  | ttl_ms => exact h.trans hagree
  | target => exact hagree.symm.trans h
  | enabled => exact hagree.symm.trans h
  | max_inflight => exact h.trans hagree

theorem HotPart.agree_refl (cfg : Config) (part : HotPart) : part.Agree cfg cfg := by
  cases part <;> first | rfl | exact ⟨rfl, rfl⟩

/-- The call has swapped its snapshot in. -/
def ReloadPc.swapped : ReloadPc → Bool
  | .applying _ _ _ => true
  | .returned (.ok _) => true
  | .panicked => true
  | _ => false

@[simp] theorem ReloadPc.loaded_swapped (current : ConfigStore.Snapshot) (loaded : Loaded) :
    (ReloadPc.loaded current loaded).swapped = false := rfl

@[simp] theorem ReloadPc.applying_swapped (cfg : Config) (report : ConfigStore.ReloadReport)
    (pending : List HotPart) : (applying cfg report pending).swapped = true := rfl

/-- The call has returned. -/
def ReloadPc.is_returned : ReloadPc → Bool
  | .returned _ => true
  | _ => false

/-- The call returned `Ok`. -/
def ReloadPc.returned_ok : ReloadPc → Bool
  | .returned (.ok _) => true
  | _ => false

/-- The call has yet to write a part, with the value of `cfg`. One that
    panicked never will. -/
def ReloadPc.owes (cfg : Config) (part : HotPart) : ReloadPc → Bool
  | .applying own _ pending => decide (part ∈ pending) && decide (part.Agree own cfg)
  | .panicked => true
  | _ => false

/-- The steps that go as the comments on the hook intend: a call swaps while
    the snapshot it took is still in force (and can be counted up), and
    writes a part with the value in force, or before one that still has to
    write it with that value. -/
def InOrder (s : Reloads) : ReloadEvent → Prop
  | .swap i _ _ =>
    match s.threads[i]? with
    | some (.loaded current _) =>
      current.generation = s.inner.generation ∧ current.generation.toNat < 2 ^ 64 - 1
    | _ => True
  | .apply i =>
    match s.threads[i]? with
    | some (.applying cfg _ (part :: _)) =>
      part.Agree cfg s.inner.cfg ∨ (s.threads.eraseIdx i).any (·.owes s.inner.cfg part) = true
    | _ => True
  | _ => True

instance (s : Reloads) (e : ReloadEvent) : Decidable (InOrder s e) :=
  match e with
  | .swap i _ _ =>
    match h : s.threads[i]? with
    | some (.loaded current _) =>
      decidable_of_iff
        (current.generation = s.inner.generation ∧ current.generation.toNat < 2 ^ 64 - 1)
        (by simp [InOrder, h])
    | some .called | some (.taken _) | some (.refused _) | some (.applying _ _ _)
    | some (.returned _) | some .panicked | none => isTrue (by simp [InOrder, h])
  | .apply i =>
    match h : s.threads[i]? with
    | some (.applying cfg _ (part :: _)) =>
      decidable_of_iff (part.Agree cfg s.inner.cfg
          ∨ (s.threads.eraseIdx i).any (·.owes s.inner.cfg part) = true)
        (by simp [InOrder, h])
    | some (.applying _ _ []) | some .called | some (.taken _) | some (.loaded _ _)
    | some (.refused _) | some (.returned _) | some .panicked | none =>
      isTrue (by simp [InOrder, h])
  | .call | .take _ | .load _ _ | .fail _ | .ret _ => isTrue trivial

/-- A call of the list owes a part. -/
def Owed (threads : List ReloadPc) (cfg : Config) (part : HotPart) : Prop :=
  ∃ (j : Nat) (pc : ReloadPc), threads[j]? = some pc ∧ pc.owes cfg part = true

/-- What reloads in order keep: the generation counts the swaps, and every
    part holds the value in force or is still owed. -/
structure ReloadInv (s : Reloads) : Prop where
  generation : s.inner.generation.toNat = 1 + s.threads.countP ReloadPc.swapped
  bounded : s.inner.cfg.Bounded
  loaded : ∀ (i : Nat) current loaded, s.threads[i]? = some (.loaded current loaded) →
    loaded.config.Bounded
  held : ∀ part : HotPart, part.Holds s.inner.cfg s.running.hot ∨
    Owed s.threads s.inner.cfg part

section steps

variable {s s' : Reloads} {i : Nat} {pc pc' : ReloadPc}

/-- A call that moves on without settling a part is still owing it. -/
theorem owes_set {threads : List ReloadPc} {cfg : Config} {part : HotPart}
    (hi : threads[i]? = some pc)
    (howes : pc.owes cfg part = true → pc'.owes cfg part = true)
    (h : Owed threads cfg part) : Owed (threads.set i pc') cfg part := by
  obtain ⟨hlt, _⟩ := List.getElem?_eq_some_iff.mp hi
  obtain ⟨j, other, hj, hother⟩ := h
  by_cases hji : j = i
  · subst hji
    rw [hi] at hj
    cases hj
    exact ⟨j, pc', List.getElem?_set_self hlt, howes hother⟩
  · exact ⟨j, other, by rw [List.getElem?_set_ne (Ne.symm hji)]; exact hj, hother⟩

/-- The files that calls have loaded, once one call has moved on. -/
theorem loaded_set {threads : List ReloadPc}
    (h : ∀ (j : Nat) current loaded, threads[j]? = some (.loaded current loaded) →
      loaded.config.Bounded)
    (hpc : ∀ current loaded, pc' = .loaded current loaded → loaded.config.Bounded) :
    ∀ (j : Nat) current loaded, (threads.set i pc')[j]? = some (.loaded current loaded) →
      loaded.config.Bounded := by
  intro j current loaded hj
  by_cases hji : j = i
  · subst hji
    -- The slot is in range, so what is read is what was put there.
    obtain ⟨hlt, _⟩ := List.getElem?_eq_some_iff.mp hj
    rw [List.length_set] at hlt
    rw [List.getElem?_set_self hlt] at hj
    exact hpc current loaded (Option.some.inj hj)
  · rw [List.getElem?_set_ne (Ne.symm hji)] at hj
    exact h j current loaded hj

/-- A call moves on, and neither the snapshot nor a component changes. -/
theorem ReloadInv.move (hinv : ReloadInv s) (hi : s.threads[i]? = some pc)
    (hswapped : pc'.swapped = pc.swapped)
    (howes : ∀ part, pc.owes s.inner.cfg part = true → pc'.owes s.inner.cfg part = true)
    (hloaded : ∀ current loaded, pc' = .loaded current loaded → loaded.config.Bounded) :
    ReloadInv (s.at_pc i pc') := by
  constructor
  · -- The call counts as before.
    have hcount := Entries.countP_set_add ReloadPc.swapped pc' hi
    rw [hswapped] at hcount
    show s.inner.generation.toNat = 1 + (s.threads.set i pc').countP ReloadPc.swapped
    rw [hinv.generation]
    omega
  · exact hinv.bounded
  · exact loaded_set hinv.loaded hloaded
  · intro part
    rcases hinv.held part with hheld | howed
    · exact Or.inl hheld
    · exact Or.inr (owes_set hi (howes part) howed)

theorem call_inv (hinv : ReloadInv s) : ReloadInv { s with threads := s.threads ++ [.called] } := by
  constructor
  · show s.inner.generation.toNat = 1 + (s.threads ++ [ReloadPc.called]).countP ReloadPc.swapped
    rw [hinv.generation, List.countP_append]
    rfl
  · exact hinv.bounded
  · intro j current loaded hj
    have hmem := List.mem_of_getElem? hj
    rcases List.mem_append.mp hmem with hold | hnew
    · obtain ⟨k, hk⟩ := List.getElem?_of_mem hold
      exact hinv.loaded k current loaded hk
    · cases List.mem_singleton.mp hnew
  · intro part
    rcases hinv.held part with hheld | ⟨j, pc, hj, howes⟩
    · exact Or.inl hheld
    · obtain ⟨hlt, _⟩ := List.getElem?_eq_some_iff.mp hj
      exact Or.inr ⟨j, pc, by rw [List.getElem?_append_left hlt]; exact hj, howes⟩

/-- A swap over the snapshot that was taken: the generation goes up by one,
    and the call owes every part. -/
theorem swap_inv {current : ConfigStore.Snapshot} {loaded : Loaded} (hinv : ReloadInv s)
    (hi : s.threads[i]? = some (.loaded current loaded))
    (hcurrent : current.generation = s.inner.generation)
    (hroom : current.generation.toNat < 2 ^ 64 - 1)
    (structural : ConfigStore.RunningStructural) (now_ms elapsed_ms : Nat) :
    let adopted := ConfigStore.adopt structural current loaded now_ms elapsed_ms
    let config_store := { s.running.config_store with inner := adopted.1 }
    ReloadInv (({ s with running := { s.running with config_store := config_store } }).at_pc i
      (.applying adopted.1.cfg adopted.2 HotPart.all)) := by
  intro adopted config_store
  obtain ⟨hlt, _⟩ := List.getElem?_eq_some_iff.mp hi
  constructor
  · have hcount := Entries.countP_set_add ReloadPc.swapped
      (ReloadPc.applying adopted.1.cfg adopted.2 HotPart.all) hi
    have hold := hinv.generation
    show (next_generation current.generation).toNat
      = 1 + (s.threads.set i (.applying adopted.1.cfg adopted.2 HotPart.all)).countP ReloadPc.swapped
    rw [next_generation_toNat]
    rw [← hcurrent] at hold
    simp only [ReloadPc.loaded_swapped, ReloadPc.applying_swapped, Bool.false_eq_true, if_false,
      if_true] at hcount
    omega
  · exact hinv.loaded i current loaded hi
  · exact loaded_set hinv.loaded (fun _ _ heq => by cases heq)
  · -- Whatever a part holds, the call that swapped will write it.
    intro part
    refine Or.inr ⟨i, _, List.getElem?_set_self hlt, ?_⟩
    have hmem := HotPart.mem_all part
    have hagree := HotPart.agree_refl adopted.1.cfg part
    show (decide (part ∈ HotPart.all) && decide (part.Agree adopted.1.cfg adopted.1.cfg)) = true
    simp only [hmem, hagree, decide_true, Bool.and_self]

/-- A part is written with the value in force, or before a call that still
    has to write it; the other parts stay as they are. -/
theorem apply_inv {cfg : Config} {report : ConfigStore.ReloadReport} {part : HotPart}
    {pending : List HotPart} {hot : HotApply} (hinv : ReloadInv s)
    (hi : s.threads[i]? = some (.applying cfg report (part :: pending)))
    (hwrite : part.write cfg s.running.hot = some hot)
    (hguard : part.Agree cfg s.inner.cfg
      ∨ (s.threads.eraseIdx i).any (·.owes s.inner.cfg part) = true) :
    ReloadInv (({ s with running := { s.running with hot := hot } }).at_pc i
      (.applying cfg report pending)) := by
  constructor
  · have hcount := Entries.countP_set_add ReloadPc.swapped (ReloadPc.applying cfg report pending) hi
    simp only [ReloadPc.applying_swapped, if_true] at hcount
    show s.inner.generation.toNat
      = 1 + (s.threads.set i (.applying cfg report pending)).countP ReloadPc.swapped
    rw [hinv.generation]
    omega
  · exact hinv.bounded
  · exact loaded_set hinv.loaded (fun _ _ heq => by cases heq)
  · intro other
    by_cases hother : other = part
    · -- The part that is written holds the value in force, or another call
      -- still owes it.
      subst hother
      rcases hguard with hagree | howed
      · exact Or.inl (HotPart.holds_agree hagree (HotPart.write_holds hwrite))
      · obtain ⟨pc, hmem, howes⟩ := List.any_eq_true.mp howed
        obtain ⟨j, hji, hj⟩ := List.mem_eraseIdx_iff_getElem?.mp hmem
        exact Or.inr ⟨j, pc, (List.getElem?_set_ne (Ne.symm hji)).trans hj, howes⟩
    · -- Another one holds as before, or whoever owes it still does.
      rcases hinv.held other with hheld | howed
      · exact Or.inl ((HotPart.write_frame hwrite hother).mpr hheld)
      · apply Or.inr
        apply owes_set hi _ howed
        intro howes
        simp only [ReloadPc.owes, List.mem_cons, hother, false_or] at howes ⊢
        exact howes

end steps

section reloads

variable (bench : Bool) (debug : String → String) (sha256 : Bytes → Digest)
  (parse_toml : String → Except (Nat × Nat × String) Config)

/-- One step in order preserves the invariant. -/
theorem reload_event_inv (s : Reloads) (e : ReloadEvent) (s' : Reloads) (hinv : ReloadInv s)
    (hguard : InOrder s e) (h : reload_step bench debug sha256 parse_toml s e = some s') :
    ReloadInv s' := by
  cases e with
  | call =>
    cases h
    exact call_inv hinv
  | take i =>
    -- A call that has taken the lock owes nothing yet.
    simp only [reload_step] at h
    split at h
    · rename_i hi
      cases h
      exact hinv.move hi rfl (fun _ howes => by cases howes) (fun _ _ heq => by cases heq)
    · cases h
  | load i file =>
    simp only [reload_step] at h
    split at h
    · rename_i current hi
      split at h
      · -- A file that loads has passed its checks.
        rename_i loaded hload
        cases h
        obtain ⟨hvalid, _⟩ := load_ok bench debug sha256 parse_toml hload
        refine hinv.move hi rfl (fun _ howes => by cases howes) ?_
        intro current' loaded' heq
        cases heq
        exact validate_bounded bench debug hvalid
      · cases h
        exact hinv.move hi rfl (fun _ howes => by cases howes) (fun _ _ heq => by cases heq)
    · cases h
  | swap i now_ms elapsed_ms =>
    simp only [reload_step] at h
    split at h
    · -- The order of the run says that nobody else is between swap and apply.
      rename_i current loaded hi
      cases h
      simp only [InOrder, hi] at hguard
      exact swap_inv hinv hi hguard.1 hguard.2 s.running.config_store.structural now_ms elapsed_ms
    · cases h
  | fail i =>
    simp only [reload_step] at h
    split at h
    · -- A refused file is counted, and nothing else is touched.
      rename_i err hi
      cases h
      have hcounted : ReloadInv { s with
          running := { s.running with config_store := s.running.config_store.failed } } :=
        ⟨hinv.generation, hinv.bounded, hinv.loaded, hinv.held⟩
      exact hcounted.move hi rfl (fun _ howes => by cases howes) (fun _ _ heq => by cases heq)
    · cases h
  | apply i =>
    simp only [reload_step] at h
    split at h
    · rename_i cfg report part pending hi
      simp only [InOrder, hi] at hguard
      split at h
      · -- The part is written, and the call owes one part less.
        rename_i hot hwrite
        cases h
        exact apply_inv hinv hi hwrite hguard
      · -- The write panicked: the call is gone, and owes what it owed.
        cases h
        exact hinv.move hi rfl (fun _ _ => rfl) (fun _ _ heq => by cases heq)
    · cases h
  | ret i =>
    simp only [reload_step] at h
    split at h
    · rename_i cfg report hi
      cases h
      refine hinv.move hi rfl ?_ (fun _ _ heq => by cases heq)
      intro part howes
      simp [ReloadPc.owes] at howes
    · cases h

/-- **Concurrent reloads**: in every run whose steps go in order, once all
    calls have returned, the generation counts those that returned `Ok`, and
    the components carry the snapshot in force. -/
theorem reloads_in_order (path : String) (file : Except String Bytes) (start : Loaded)
    (hload : load bench debug sha256 parse_toml path file = .ok start) (clock now_ms : Nat)
    (salt : Bytes) (hot : HotApply) (hseed : HotApply.seed start.config clock salt = some hot)
    (events : List ReloadEvent) (s : Reloads)
    (hguard : Guarded (reload_step bench debug sha256 parse_toml) InOrder
      ⟨⟨ConfigStore.new start now_ms, hot⟩, []⟩ events)
    (hrun : run (reload_step bench debug sha256 parse_toml)
      ⟨⟨ConfigStore.new start now_ms, hot⟩, []⟩ events = some s)
    (hreturned : ∀ pc ∈ s.threads, pc.is_returned = true) :
    s.inner.generation.toNat = 1 + s.threads.countP ReloadPc.returned_ok ∧
      s.running.hot.Carries s.inner.cfg := by
  obtain ⟨hvalid, _⟩ := load_ok bench debug sha256 parse_toml hload
  have hstart : ReloadInv ⟨⟨ConfigStore.new start now_ms, hot⟩, []⟩ := by
    refine ⟨rfl, validate_bounded bench debug hvalid, ?_, ?_⟩
    · intro i current loaded hi
      cases hi
    · exact fun part => Or.inl (HotApply.seed_holds hseed part)
  have hinv := run_invariant (reload_event_inv bench debug sha256 parse_toml) events _ s hstart
    hguard hrun
  constructor
  · -- the calls that swapped are those that returned `Ok`
    rw [hinv.generation]
    congr 1
    apply List.countP_congr
    intro pc hmem
    have hdone := hreturned pc hmem
    cases pc with
    | returned result => cases result <;> rfl
    | _ => cases hdone
  · apply HotApply.carries_of_holds hinv.bounded
    intro part
    rcases hinv.held part with hheld | ⟨j, pc, hj, howes⟩
    · exact hheld
    · -- a call that returned owes no part
      have hdone := hreturned pc (List.mem_of_getElem? hj)
      cases pc with
      | returned result => cases howes
      | _ => cases hdone

end reloads

/-- The empty file of the sample, as it loads. -/
def sample_loaded : Loaded := ⟨capped_config 8192, zero_digest, "", 0⟩

/-- A process that started with it. -/
def sample_start : Reloads :=
  ⟨⟨ConfigStore.new sample_loaded 0, { sample_hot with cap := CaptureCap.of_max 8192 }⟩, []⟩

/-- Two calls that overlap in order: the second starts after the first has
    swapped, and writes every part after it. -/
def overlapping_calls : List ReloadEvent :=
  [.call, .call, .take 0, .load 0 (.ok []), .swap 0 1 1, .take 1, .load 1 (.ok [0x63]),
    .swap 1 2 1]
  ++ List.replicate HotPart.all.length (.apply 0) ++ List.replicate HotPart.all.length (.apply 1)
  ++ [.ret 0, .ret 1]

theorem reloads_in_order_overlapping :
    ∃ s, run (reload_step false id sample_digest sample_toml) sample_start overlapping_calls = some s ∧
      s.threads.countP ReloadPc.returned_ok = 2 ∧ s.running.hot.cap.max_bytes = 16384 ∧
      s.inner.generation.toNat = 1 + s.threads.countP ReloadPc.returned_ok ∧
      s.running.hot.Carries s.inner.cfg := by
  refine ⟨_, rfl, by decide, by decide, ?_⟩
  exact reloads_in_order false id sample_digest sample_toml "" (.ok []) sample_loaded rfl 0 0 []
    sample_start.running.hot rfl overlapping_calls _ (by decide) rfl (by decide)

/-- Two calls that take the same snapshot, and whose hooks run the other way
    round. -/
def crossing_calls : List ReloadEvent :=
  [.call, .call, .take 0, .take 1, .load 0 (.ok []), .load 1 (.ok [0x63]), .swap 0 1 1, .swap 1 2 1]
  ++ List.replicate HotPart.all.length (.apply 1) ++ List.replicate HotPart.all.length (.apply 0)
  ++ [.ret 0, .ret 1]

/-- A crossing loses a generation, and leaves the components with the values
    of the snapshot that was replaced. -/
theorem crossing_reloads_disagree :
    ∃ s, run (reload_step false id sample_digest sample_toml) sample_start crossing_calls = some s ∧
      (∀ pc ∈ s.threads, pc.is_returned = true) ∧
      s.inner.generation.toNat ≠ 1 + s.threads.countP ReloadPc.returned_ok ∧
      ¬ s.running.hot.Carries s.inner.cfg := by
  refine ⟨_, rfl, by decide, by decide, ?_⟩
  intro h
  exact absurd h.cap (by decide)

end AgentTraceGateway
