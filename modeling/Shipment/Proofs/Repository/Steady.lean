import Shipment.Proofs.Repository.Effect

/-!
# What every call keeps

`Tidy` is the invariant of the histories and `Steady` relates a repository to every
later one, whatever was called in between.  Each is proved once, by the cases of
`Effect`.
-/

namespace Shipment.Repository

variable {r r' r'' : Repository}

/-! ## Histories -/

/-- Some branch has the history: a local one, a tracking ref or one on `origin`. -/
def Holds (h : History) (r : Repository) : Prop :=
  r.branches.Holds h ∨ r.tracking.Holds h ∨ r.remote.Holds h

/-- The ids of a history are distinct, and those yet to be issued are in none. -/
structure Tidy (r : Repository) : Prop where
  /-- No commit is twice in a history. -/
  distinct : ∀ h, r.Holds h → h.Nodup
  /-- No history has an id that is yet to be issued. -/
  unused : ∀ h, r.Holds h → ∀ k, r.issued < k → idOf k ∉ h

/-- No history has the commit. -/
def New (id : String) (r : Repository) : Prop := ∀ h, r.Holds h → id ∉ h

theorem Tidy.new_idOf (ht : r.Tidy) {k : Nat} (hk : r.issued < k) : r.New (idOf k) :=
  fun h hh => ht.unused h hh k hk

theorem Tidy.new_nextId (ht : r.Tidy) : r.New r.nextId := ht.new_idOf (Nat.lt_succ_self _)

/-- A tidy repository whose `HEAD` is on a local branch. -/
structure WellFormed (r : Repository) : Prop extends Tidy r where
  onBranch : ∃ current h, r.current = some current ∧ r.branches.get? current = some h

theorem head_eq {current : String} {h : History} (hc : r.current = some current)
    (hh : r.branches.get? current = some h) : r.head = h := by
  rw [head, headHistory?, hc]
  exact congrArg (Option.getD · []) hh

theorem headHistory?_eq {current : String} (hc : r.current = some current) :
    r.headHistory? = r.branches.get? current := by
  rw [headHistory?, hc]
  rfl

/-- The history of `HEAD` is empty or one that is held. -/
theorem head_eq_nil_or_holds (r : Repository) : r.head = [] ∨ r.Holds r.head := by
  unfold head
  cases hh : r.headHistory? with
  | none => exact .inl rfl
  | some h =>
      obtain ⟨current, -, hb⟩ := Option.bind_eq_some_iff.mp hh
      exact .inr (.inl ⟨current, hb⟩)

theorem resolve?_trackingRef (branch : String) (r : Repository) :
    r.resolve? (trackingRef branch) = r.tracking.get? branch := by
  have hne : trackingRef branch ≠ "HEAD" := by
    intro e
    have h := congrArg (List.head? ∘ String.toList) e
    simp [trackingRef, origin] at h
  rw [resolve?, if_neg hne, toList_trackingRef branch, Text.after?_append]
  exact congrArg r.tracking.get? (String.ofList_toList)

/-- Whether a name stands for the local branch of that name. -/
def Plain (name : String) : Prop := name ≠ "HEAD" ∧ ¬(trackingRef "").toList <+: name.toList

instance (name : String) : Decidable (Plain name) :=
  inferInstanceAs (Decidable (name ≠ "HEAD" ∧ ¬(trackingRef "").toList <+: name.toList))

theorem resolve?_of_plain {name : String} (h : Plain name) (r : Repository) :
    r.resolve? name = r.branches.get? name := by
  rw [resolve?, if_neg h.1, Text.after?_eq_none.mpr h.2]

theorem resolve?_head {current : String} (hc : r.current = some current) :
    r.resolve? "HEAD" = r.branches.get? current := by
  rw [resolve?, if_pos rfl, headHistory?_eq hc]

theorem mem_missing {start target : History} {id : String} :
    id ∈ missing start target ↔ id ∈ target ∧ id ∉ start := by
  simp [missing]

theorem missing_eq_nil {start target : History} :
    missing start target = [] ↔ ∀ id ∈ target, id ∈ start := by
  simp [missing]

theorem countCommits_eq_ok {start target : String} {n : Nat} :
    r.countCommits start target = .ok n ↔ ∃ a b, r.resolve? start = some a ∧
      r.resolve? target = some b ∧ (missing a b).length = n := by
  unfold countCommits resolve
  cases r.resolve? start with
  | none => simp [Bind.bind, Except.bind]
  | some a =>
      cases r.resolve? target with
      | none => simp [Bind.bind, Except.bind]
      | some b => simp [Bind.bind, Except.bind, Pure.pure, Except.pure]

theorem listCommits_eq_ok {start target : String} {a b : History}
    (ha : r.resolve? start = some a) (hb : r.resolve? target = some b) :
    r.listCommits start target = .ok ((missing a b).reverse.map fun id => ⟨id, r.message id⟩) := by
  unfold listCommits resolve
  rw [ha, hb]
  rfl

/-- Commits are listed only between revisions that stand for something. -/
theorem exists_of_listCommits {start target : String} {commits : List Commit}
    (h : r.listCommits start target = .ok commits) :
    ∃ a b, r.resolve? start = some a ∧ r.resolve? target = some b := by
  unfold listCommits resolve at h
  cases ha : r.resolve? start with
  | none => simp [ha, Bind.bind, Except.bind] at h
  | some a =>
      cases hb : r.resolve? target with
      | none => simp [ha, hb, Bind.bind, Except.bind] at h
      | some b => exact ⟨a, b, rfl, rfl⟩

theorem isAncestor_eq_ok {ancestor descendant : String} {known : Bool} :
    r.isAncestor ancestor descendant = .ok known ↔ ∃ a b, r.resolve? ancestor = some a ∧
      r.resolve? descendant = some b ∧ a.isPrefixOf b = known := by
  unfold isAncestor resolve
  cases r.resolve? ancestor with
  | none => simp [Bind.bind, Except.bind]
  | some a =>
      cases r.resolve? descendant with
      | none => simp [Bind.bind, Except.bind]
      | some b => simp [Bind.bind, Except.bind, Pure.pure, Except.pure]

/-- A push with a lease is refused only if the tracking ref is stale. -/
theorem refusal_forceWithLease {branch : String} {h : History}
    (hl : ∀ there, r.remote.get? branch = some there → r.tracking.get? branch = some there) :
    r.refusal branch .forceWithLease h = none := by
  unfold refusal
  cases hr : r.remote.get? branch with
  | none => rfl
  | some there => exact if_pos (hl there hr)

theorem push_eq_ok {branch : String} {mode : PushMode} {h : History}
    (hv : r.resolve? branch = some h) (hr : r.refusal branch mode h = none) :
    r.push branch mode = .ok { r with
      remote := r.remote.set branch h, tracking := r.tracking.set branch h } := by
  unfold push resolve
  rw [hv]
  simp only [Bind.bind, Except.bind, hr]
  rfl

/-- A revision stands for a history that is held. -/
theorem holds_of_resolve? {rev : String} {h : History} (hr : r.resolve? rev = some h) :
    r.Holds h := by
  unfold resolve? at hr
  split at hr
  · obtain ⟨current, -, hb⟩ := Option.bind_eq_some_iff.mp hr
    exact .inl ⟨current, hb⟩
  · split at hr
    · exact .inr (.inl ⟨_, hr⟩)
    · exact .inl ⟨_, hr⟩

/-! ## Tidiness -/

/-- A history with ids issued next to it. -/
theorem append_freshIds {issued : Nat} {h : History}
    (hh : h.Nodup ∧ ∀ k, issued < k → idOf k ∉ h) (count : Nat) :
    (h ++ freshIds issued count).Nodup ∧
      ∀ k, issued + count < k → idOf k ∉ h ++ freshIds issued count := by
  refine ⟨List.nodup_append.mpr ⟨hh.1, nodup_freshIds _ _, ?_⟩, fun k hk hm => ?_⟩
  · rintro id hid _ hf rfl
    obtain ⟨k, hk, -, rfl⟩ := mem_freshIds hf
    exact hh.2 k hk hid
  · rcases List.mem_append.mp hm with hm | hm
    · exact hh.2 k (by omega) hm
    · obtain ⟨j, -, hj, e⟩ := mem_freshIds hm
      have := idOf_injective e
      omega

namespace Tidy

/-- New histories must have distinct ids that were issued. -/
theorem of_holds (ht : r.Tidy) (hi : r.issued ≤ r'.issued)
    (hh : ∀ h, r'.Holds h → r.Holds h ∨ h.Nodup ∧ ∀ k, r'.issued < k → idOf k ∉ h) :
    r'.Tidy := by
  refine ⟨fun h hr => ?_, fun h hr k hk => ?_⟩
  · rcases hh h hr with hr | hn
    · exact ht.distinct h hr
    · exact hn.1
  · rcases hh h hr with hr | hn
    · exact ht.unused h hr k (Nat.lt_of_le_of_lt hi hk)
    · exact hn.2 k hk

/-- One local branch has a new history, or moves to one that is held. -/
theorem of_set (ht : r.Tidy) {branch : String} {h : History} (hi : r.issued ≤ r'.issued)
    (hb : r'.branches = r.branches.set branch h) (htr : r'.tracking = r.tracking)
    (hre : r'.remote = r.remote)
    (hh : r.Holds h ∨ h.Nodup ∧ ∀ k, r'.issued < k → idOf k ∉ h) : r'.Tidy := by
  refine ht.of_holds hi fun k hk => ?_
  rw [Holds, hb, htr, hre] at hk
  rcases hk with hk | hk
  · rcases Table.holds_of_holds_set hk with rfl | hk
    · exact hh
    · exact .inl (.inl hk)
  · exact .inl (.inr hk)

/-- A repository is tidy if its ids differ in a history and do not look issued. -/
theorem of_entries (hh : ∀ entry ∈ r.branches ++ r.tracking ++ r.remote,
    entry.2.Nodup ∧ ∀ id ∈ entry.2, id.toList.head? ≠ some 'n') : r.Tidy := by
  have hall (h : History) (hr : r.Holds h) :
      h.Nodup ∧ ∀ id ∈ h, id.toList.head? ≠ some 'n' := by
    simp only [List.append_assoc, List.mem_append] at hh
    rcases hr with hr | hr | hr
    · obtain ⟨key, hm⟩ := Table.exists_mem_of_holds hr
      exact hh _ (.inl hm)
    · obtain ⟨key, hm⟩ := Table.exists_mem_of_holds hr
      exact hh _ (.inr (.inl hm))
    · obtain ⟨key, hm⟩ := Table.exists_mem_of_holds hr
      exact hh _ (.inr (.inr hm))
  refine ⟨fun h hr => (hall h hr).1, fun h hr k _ hm => (hall h hr).2 _ hm ?_⟩
  simp [idOf]

/-- A commit of a history has none of the ids that are yet to be issued. -/
theorem ne_idOf (ht : r.Tidy) {h : History} (hh : r.Holds h) {id : String} (hid : id ∈ h) {k : Nat}
    (hk : r.issued < k) : id ≠ idOf k := by
  rintro rfl
  exact ht.unused h hh k hk hid

theorem head (ht : r.Tidy) : r.head.Nodup ∧ ∀ k, r.issued < k → idOf k ∉ r.head := by
  rcases head_eq_nil_or_holds r with hn | hh
  · rw [hn]
    exact ⟨List.nodup_nil, fun k _ => List.not_mem_nil⟩
  · exact ⟨ht.distinct _ hh, ht.unused _ hh⟩

end Tidy

/-- A repository stays tidy, because each new commit gets an id that was not issued yet. -/
theorem Effect.tidy {c : Call} {reply : Except Failure c.Answer} (h : Effect r c reply r')
    (ht : r.Tidy) : r'.Tidy := by
  have hhead := ht.head
  cases h with
  | failed e => exact ht
  | asked a hq => exact ht
  | requested url => exact ht
  | nothing hd => exact ht
  | checkedOut hb => exact ht.of_holds (Nat.le_refl _) fun h hr => .inl hr
  | staged hd hi => exact ht.of_holds (Nat.le_refl _) fun h hr => .inl hr
  | detached e hc => exact ht.of_holds (Nat.le_succ _) fun h hr => .inl hr
  | fetched hf =>
      refine ht.of_holds (Nat.le_refl _) fun h hr => .inl ?_
      rcases hr with hr | hr | hr
      · exact .inl hr
      · rcases Table.holds_of_holds_set hr with rfl | hr
        · exact .inr (.inr ⟨_, hf⟩)
        · exact .inr (.inl hr)
      · exact .inr (.inr hr)
  | created => exact ht.of_set (Nat.le_refl _) rfl rfl rfl (.inr hhead)
  | deleted hb =>
      refine ht.of_holds (Nat.le_refl _) fun h hr => .inl ?_
      rcases hr with hr | hr
      · exact .inl (Table.holds_of_holds_erase hr)
      · exact .inr hr
  | reset hu hc =>
      have hp := upTo?_isPrefix hu
      refine ht.of_set (Nat.le_refl _) rfl rfl rfl (.inr ⟨hp.sublist.nodup hhead.1, ?_⟩)
      exact fun k hk hm => hhead.2 k hk (hp.subset hm)
  | forwarded hv hp hc => exact ht.of_set (Nat.le_refl _) rfl rfl rfl (.inl (holds_of_resolve? hv))
  | committed hs hc =>
      exact ht.of_set (Nat.le_succ _) rfl rfl rfl (.inr (append_freshIds hhead 1))
  | @rebased rev current h hv hc =>
      -- The new history is one that some branch has, and fresh ids behind it.
      obtain ⟨messages, e⟩ := replay_eq h (missing h r.head) r
      rw [e]
      have hh := holds_of_resolve? hv
      refine ht.of_set (Nat.le_add_right _ _) rfl rfl rfl (.inr ?_)
      exact append_freshIds ⟨ht.distinct h hh, ht.unused h hh⟩ _
  | pushed hv hf =>
      have hh := holds_of_resolve? hv
      refine ht.of_holds (Nat.le_refl _) fun h hr => .inl ?_
      rcases hr with hr | hr | hr
      · exact .inl hr
      · rcases Table.holds_of_holds_set hr with rfl | hr
        · exact hh
        · exact .inr (.inl hr)
      · rcases Table.holds_of_holds_set hr with rfl | hr
        · exact hh
        · exact .inr (.inr hr)

/-! ## Steadiness -/

/-- `origin` has the branch, and its tracking ref is up to date. -/
def UpToDate (branch : String) (r : Repository) : Prop :=
  ∃ h, r.remote.get? branch = some h ∧ r.tracking.get? branch = some h

/-- What calls keep, whatever they are. -/
structure Steady (r r' : Repository) : Prop where
  default : r'.default = r.default
  hasOrigin : r'.hasOrigin = r.hasOrigin
  operation : r'.operation = r.operation
  ignored : r'.ignored = r.ignored
  issued : r.issued ≤ r'.issued
  remote : ∀ branch, r.remote.get? branch ≠ none → r'.remote.get? branch ≠ none
  upToDate : ∀ branch, r.UpToDate branch → r'.UpToDate branch
  tidy : r.Tidy → r'.Tidy

namespace Steady

theorem refl (r : Repository) : Steady r r :=
  ⟨rfl, rfl, rfl, rfl, Nat.le_refl _, fun _ h => h, fun _ h => h, fun h => h⟩

theorem trans (h : Steady r r') (h' : Steady r' r'') : Steady r r'' where
  default := h'.default.trans h.default
  hasOrigin := h'.hasOrigin.trans h.hasOrigin
  operation := h'.operation.trans h.operation
  ignored := h'.ignored.trans h.ignored
  issued := Nat.le_trans h.issued h'.issued
  remote branch hb := h'.remote branch (h.remote branch hb)
  upToDate branch hb := h'.upToDate branch (h.upToDate branch hb)
  tidy ht := h'.tidy (h.tidy ht)

/-- Calls that change local things only. -/
theorem of_eq (hd : r'.default = r.default) (ho : r'.hasOrigin = r.hasOrigin)
    (hp : r'.operation = r.operation) (hg : r'.ignored = r.ignored) (hi : r.issued ≤ r'.issued)
    (hr : r'.remote = r.remote) (ht : r'.tracking = r.tracking) (hy : r.Tidy → r'.Tidy) :
    Steady r r' := by
  refine ⟨hd, ho, hp, hg, hi, fun branch => ?_, fun branch => ?_, hy⟩
  · rw [hr]
    exact id
  · rw [UpToDate, UpToDate, hr, ht]
    exact id

end Steady

/-- No call takes a branch off `origin`, brings a tracking ref out of date or gives an id twice. -/
theorem Effect.steady {c : Call} {reply : Except Failure c.Answer} (h : Effect r c reply r') :
    Steady r r' := by
  have ht := h.tidy
  cases h with
  | failed e => exact .refl r
  | asked a hq => exact .refl r
  | requested url => exact .refl r
  | nothing hd => exact .refl r
  | created => exact .of_eq rfl rfl rfl rfl (Nat.le_refl _) rfl rfl ht
  | checkedOut hb => exact .of_eq rfl rfl rfl rfl (Nat.le_refl _) rfl rfl ht
  | deleted hb => exact .of_eq rfl rfl rfl rfl (Nat.le_refl _) rfl rfl ht
  | reset hu hc => exact .of_eq rfl rfl rfl rfl (Nat.le_refl _) rfl rfl ht
  | forwarded hv hp hc => exact .of_eq rfl rfl rfl rfl (Nat.le_refl _) rfl rfl ht
  | staged hd hi => exact .of_eq rfl rfl rfl rfl (Nat.le_refl _) rfl rfl ht
  | committed hs hc => exact .of_eq rfl rfl rfl rfl (Nat.le_succ _) rfl rfl ht
  | detached e hc => exact .of_eq rfl rfl rfl rfl (Nat.le_succ _) rfl rfl ht
  | @rebased rev current h hv hc =>
      obtain ⟨messages, e⟩ := replay_eq h (missing h r.head) r
      rw [e] at ht ⊢
      exact .of_eq rfl rfl rfl rfl (Nat.le_add_right _ _) rfl rfl ht
  | @fetched branch h hf =>
      refine ⟨rfl, rfl, rfl, rfl, Nat.le_refl _, fun _ h => h, ?_, ht⟩
      intro b hup
      obtain ⟨k, hr, hb⟩ := hup
      refine ⟨k, hr, ?_⟩
      rw [Table.get?_set]
      split
      · rename_i e
        rw [← hr, e, hf]
      · exact hb
  | @pushed branch mode h hv hf =>
      refine ⟨rfl, rfl, rfl, rfl, Nat.le_refl _, fun b hb => ?_, ?_, ht⟩
      · rw [Table.get?_set]
        split
        · exact Option.some_ne_none _
        · exact hb
      · intro b hup
        obtain ⟨k, hr, hb⟩ := hup
        unfold UpToDate
        rw [Table.get?_set, Table.get?_set]
        split
        · exact ⟨h, rfl, rfl⟩
        · exact ⟨k, hr, hb⟩

end Shipment.Repository
