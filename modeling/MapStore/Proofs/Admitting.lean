/-
MapStore.Proofs.Admitting — what a buffer takes, the map below it takes.

A merge makes the waiting changes in the order of their keys and stops at the
first that is refused, so a single change that the direct map below refuses
would hold back all behind it, merge after merge. `Admits` says that there is
none: the direct map is open and its data types admit every change that waits
before it. A change was checked against the same data types when it came, and
the direct map is closed from above only once nothing waits.

Two things this rests on. Nobody closes the direct map by itself, behind the
back of the map on top. And a key type admits equal keys alike
(`DataType.Coherent`): a slot keeps its key as it was first spelled, by a
removal too, which nothing checks, while the change in it may come from a later
put under another spelling. A type whose order is total has one spelling of each
key, so this is no restriction there: byte strings, texts and numbers are such
types (`DataType.coherent_of_mem`). For other types it cannot be left out: see
`word_blocks`.
-/
import MapStore.Proofs.Upholding

namespace MapStore

/-! ## Changes that a direct map takes -/

namespace DirectMap

variable {d d' : DirectMap} {key : Bytes} {c : Change}

/-- The map makes the change. -/
def Takes (d : DirectMap) (key : Bytes) (c : Change) : Prop :=
  ∃ previous d', d.write key c = .ok (previous, d')

/-- It makes those that its data types admit, as long as it is open. -/
theorem takes_iff : d.Takes key c ↔
    d.closed = false ∧ PlainMap.checkChange d.keyType d.valueType key c = .ok () := by
  constructor
  · rintro ⟨previous, d', wrote⟩
    obtain ⟨plain, made, -⟩ := write_eq_ok.1 wrote
    obtain ⟨isOpen, admitted, -⟩ := PlainMap.write_eq_ok.1 made
    exact ⟨isOpen, admitted⟩
  · rintro ⟨isOpen, admitted⟩
    exact ⟨_, _, write_eq_ok.2 ⟨_, PlainMap.write_eq_ok.2 ⟨isOpen, admitted, rfl, rfl⟩, rfl⟩⟩

theorem Takes.congr (h : d.Takes key c) (base : d'.toBase = d.toBase)
    (closed : d'.closed = d.closed) : d'.Takes key c := by
  have keyType : d'.keyType = d.keyType := congrArg Base.keyType base
  have valueType : d'.valueType = d.valueType := congrArg Base.valueType base
  rw [takes_iff] at h ⊢
  rwa [closed, keyType, valueType]

end DirectMap

/-- All changes that wait in the buffer are ones that the direct map takes. -/
def WriteBuffer.AdmittedBy (w : WriteBuffer) (d : DirectMap) : Prop :=
  ∀ entry ∈ w.snapshot, d.Takes entry.1 entry.2.change

namespace WriteBuffer

variable {w : WriteBuffer} {d d' : DirectMap} {key : Bytes} {c : Change}

theorem admittedBy_of_nil (nothing : w.snapshot = []) (d : DirectMap) : w.AdmittedBy d := by
  intro entry mem
  rw [nothing] at mem
  cases mem

theorem AdmittedBy.congr (h : w.AdmittedBy d) (base : d'.toBase = d.toBase)
    (closed : d'.closed = d.closed) : w.AdmittedBy d' :=
  fun entry mem => (h entry mem).congr base closed

theorem AdmittedBy.eraseUnchanged [Std.TransCmp w.slots.order] (h : w.AdmittedBy d) (key : Bytes)
    (seq : Nat) : (w.eraseUnchanged key seq).2.AdmittedBy d :=
  fun entry mem => h entry (mem_snapshot_eraseUnchanged w mem)

/-- If anything waits, the direct map is open. -/
theorem AdmittedBy.isOpen [Std.TransCmp w.slots.order] (h : w.AdmittedBy d)
    (there : w.get? key ≠ none) : d.closed = false := by
  cases found : w.slots.get? key with
  | none => simp [get?, found] at there
  | some slot =>
    obtain ⟨kept, -, mem⟩ := (SortedTable.get?_eq_some_iff w.slots).1 found
    exact (DirectMap.takes_iff.1 (h _ mem)).1

/-- A change that is admitted may join those that wait. Its slot keeps the key
as it was spelled before. -/
theorem AdmittedBy.insert [Std.TransCmp w.slots.order] (h : w.AdmittedBy d)
    (order : w.slots.order = d.keyType.compare) (coherent : d.keyType.Coherent)
    (seen : w.get? key ≠ none ∨ d.closed = false)
    (admitted : PlainMap.checkChange d.keyType d.valueType key c = .ok ()) :
    (w.insert key c).2.AdmittedBy d := by
  have isOpen : d.closed = false := seen.elim h.isOpen id
  intro entry mem
  obtain old | rfl := SortedTable.mem_toList_insert w.slots mem
  · exact h entry old
  · have same : d.keyType.compare key (w.slots.keptKey key) = .eq := by
      rw [← order, Std.OrientedCmp.eq_comm, SortedTable.order_keptKey]
      exact Std.ReflCmp.compare_self
    exact DirectMap.takes_iff.2 ⟨isOpen, PlainMap.checkChange_congr coherent same admitted⟩

end WriteBuffer

namespace Store

variable {s s' : Store} {m b x : MapHandle} {st : MapState} {front : Front}

/-! ## Maps that can be drained -/

/-- The direct map below the map takes all that waits in it. -/
def Admits (s : Store) (m : MapHandle) : Prop :=
  ∀ st front w d, s.maps[m.index]? = some st → st.role = .over front → st.buffer? = some w →
    s.maps[front.backing.index]? = some (.direct d) → w.AdmittedBy d

theorem Admits.of_maps (h : s.Admits m) (same : s'.maps = s.maps) : s'.Admits m := by
  unfold Admits
  rw [same]
  exact h

/-- One map changes within its role: the map itself, and the map below takes
what waits in it then, or the map below, and still takes what waits, or
another. -/
theorem Admits.set {y : MapHandle} {old st' : MapState} (h : s.Admits m)
    (there : s.maps[y.index]? = some old) (role : st'.role = old.role)
    (own : y = m → ∀ front w d, old.role = .over front → st'.buffer? = some w →
      s.maps[front.backing.index]? = some (.direct d) → w.AdmittedBy d)
    (below : ∀ st front w d d', s.maps[m.index]? = some st → st.role = .over front →
      st.buffer? = some w → front.backing = y → old = .direct d → st' = .direct d' →
      w.AdmittedBy d → w.AdmittedBy d') : (s.set y st').Admits m := by
  intro st front w d state above waiting base
  rw [maps_set, there] at state base
  split at state
  · rename_i top
    cases state
    split at base
    · cases base
      cases above
    · exact own top front w d (role.symm.trans above) waiting base
  · split at base
    · rename_i lower
      obtain rfl : st' = .direct d := Option.some.inj base
      obtain ⟨d₀, rfl, -⟩ := MapState.direct_of_role role.symm
      exact below st front w d₀ d state above waiting lower.symm rfl rfl
        (h st front w d₀ state above waiting (lower ▸ there))
    · exact h st front w d state above waiting base

/-- Another direct map in its place, as open and with the same data types. -/
theorem Admits.set_base {d d' : DirectMap} (h : s.Admits m)
    (base : s.maps[b.index]? = some (.direct d)) (toBase : d'.toBase = d.toBase)
    (closed : d'.closed = d.closed) : (s.set b (.direct d')).Admits m := by
  refine h.set base (congrArg Role.base toBase) (fun _ _ _ _ above => nomatch above) ?_
  intro _ _ w d₁ d₂ _ _ _ _ same same' taken
  cases same
  cases same'
  exact taken.congr toBase closed

/-- A map that is not direct changes. -/
theorem Admits.set_top {y : MapHandle} {old st' : MapState} (h : s.Admits m)
    (there : s.maps[y.index]? = some old) (role : st'.role = old.role)
    (top : ∀ d, old ≠ .direct d)
    (own : y = m → ∀ front w d, old.role = .over front → st'.buffer? = some w →
      s.maps[front.backing.index]? = some (.direct d) → w.AdmittedBy d) : (s.set y st').Admits m :=
  h.set there role own fun _ _ _ d _ _ _ _ _ same => absurd same (top d)

theorem front_of_role? (above : s.role? m = some (.over front))
    (state : s.maps[m.index]? = some st) {front' : Front} (above' : st.role = .over front') :
    front' = front := by
  rw [role?_of_maps state, above'] at above
  cases above
  rfl

theorem not_direct_of_over (above : st.role = .over front) (d : DirectMap) : st ≠ .direct d := by
  rintro rfl
  cases above

theorem Layout.order_buffer (layout : s.Layout) {w : WriteBuffer} {d : DirectMap}
    (state : s.maps[m.index]? = some st) (above : st.role = .over front)
    (waiting : st.buffer? = some w) (base : s.maps[front.backing.index]? = some (.direct d)) :
    w.slots.order = d.keyType.compare ∧ Std.TransCmp w.slots.order ∧ front.keyType = d.keyType ∧
      front.valueType = d.valueType := by
  obtain ⟨-, x, role, -, -, keyType, valueType⟩ :=
    layout.below m front (by rw [role?_of_maps state, above])
  rw [role?_of_maps base] at role
  cases role
  have order := layout.orders m st w front state waiting above
  have lawful := (layout.lawful _ _ (role?_of_maps base)).2
  rw [keyType] at order
  exact ⟨order, order ▸ lawful, keyType, valueType⟩

/-- A move that leaves what maps show. -/
theorem UpkeepMove.admits (h : s.UpkeepMove s') (layout : s.Layout) (admits : s.Admits m) :
    s'.Admits m := by
  cases h with
  | metered meters => exact admits.of_maps rfl
  | counted units => exact admits.of_maps rfl
  | @merged y st front w key slot rest d d' previous state above waiting first base wrote =>
    have ne := ne_of_role state above base
    have closed : d'.closed = d.closed := by rw [(DirectMap.of_write wrote).2]
    obtain ⟨-, lawful, -⟩ := layout.order_buffer state above waiting base
    -- first the map below has the change, then it waits no longer
    have based : (s.set front.backing (.direct d')).Admits m :=
      admits.set_base base (DirectMap.toBase_of_write wrote) closed
    have state' := (maps_set_of_ne s (.direct d') ne).trans state
    refine based.set_top state' (MapState.role_withBuffer ..) (not_direct_of_over above) ?_
    rintro rfl front' w' d₁ above' waiting' base'
    rw [MapState.buffer?_withBuffer waiting] at waiting'
    cases waiting'
    exact (based st front' w d₁ state' above' waiting base').eraseUnchanged key slot.seq
  | @saved b d base =>
    obtain ⟨dirty, eq⟩ := d.save_map s.disk
    have stored : ({ s with disk := (d.save s.disk).2.2 } : Store).Admits m := admits.of_maps rfl
    have toBase : (d.save s.disk).2.1.toBase = d.toBase := by
      rw [eq]
      rfl
    exact stored.set_base base toBase (by rw [eq])
  | @entered y a state direct alive =>
    have listed : (s.withListed a.live
        ((s.liveSets a.live).buffered.insert (.map y)).2).Admits m := admits.of_maps rfl
    refine listed.set_top state rfl nofun ?_
    intro _ front w d _ waiting _
    cases waiting
    exact WriteBuffer.admittedBy_of_nil (WriteBuffer.snapshot_empty _) d
  | @left y a state drained =>
    have set : ∀ s₁ : Store, s₁.maps = s.maps →
        (s₁.set y (.adaptive { a with buffer := none })).Admits m := by
      intro s₁ maps
      have state₁ : s₁.maps[y.index]? = some (.adaptive a) := maps ▸ state
      refine (admits.of_maps maps).set_top state₁ rfl nofun ?_
      intro _ _ _ _ _ waiting
      cases waiting
    split
    · exact set _ rfl
    · exact set _ rfl

theorem UpkeepMoves.admits (h : s.UpkeepMoves s') (layout : s.Layout) (admits : s.Admits m) :
    s'.Admits m := by
  induction h with
  | refl => exact admits
  | tail before move ih => exact move.admits (UpkeepMoves.layout before layout) ih

/-- A change that a caller wants. -/
theorem Writes.admits (h : s.Writes s') (layout : s.Layout) (above : s.role? m = some (.over front))
    (coherent : front.keyType.Coherent) (admits : s.Admits m) : s'.Admits m := by
  cases h with
  | memory state wrote => exact admits.set_top state rfl nofun fun _ _ _ _ above' => nomatch above'
  | @direct b d d' key c previous state wrote =>
    exact admits.set_base state (DirectMap.toBase_of_write wrote)
      (by rw [(DirectMap.of_write wrote).2])
  | @buffered y st front' w d key c state above' waiting base seen admitted =>
    refine admits.set_top state (MapState.role_withBuffer ..) (not_direct_of_over above') ?_
    rintro rfl front'' w' d₁ above'' waiting' base'
    rw [MapState.buffer?_withBuffer waiting] at waiting'
    cases waiting'
    obtain rfl := front_of_role? above state above'
    obtain rfl : front' = front'' := Role.over.inj (above'.symm.trans above'')
    obtain rfl : d = d₁ := by
      have same := base.symm.trans base'
      cases same
      rfl
    obtain ⟨order, lawful, keyType, valueType⟩ := layout.order_buffer state above' waiting base
    rw [keyType] at coherent
    rw [keyType, valueType] at admitted
    exact (admits st front' w d state above' waiting base).insert order coherent seen admitted

/-- The close of a map that is not the one below this one. The map below is
closed by the map on top only, once nothing waits. -/
theorem Closes.admits (h : s.Closes x s') (layout : s.Layout)
    (above : s.role? m = some (.over front)) (ne : x ≠ front.backing) (admits : s.Admits m) :
    s'.Admits m := by
  cases h with
  | memory state => exact admits.set_top state rfl nofun fun _ _ _ _ above' => nomatch above'
  | @marked y closed state =>
    refine admits.set_top state rfl nofun ?_
    rintro rfl front' w d above' waiting base
    exact admits _ front' w d state above' waiting base
  | @base b d waiting rests clean drained =>
    refine admits.set rests.base rfl (fun _ _ _ _ above' => nomatch above') ?_
    intro st front' w d₁ d₂ state above' waiting' lower _ _ _
    obtain rfl := front_of_role? above state above'
    obtain ⟨rfl, -⟩ | ⟨st', front'', state', above'', lower', waits⟩ := rests.top
    · exact absurd lower.symm ne
    · obtain rfl : x = m := layout.single x m front'' front' (by rw [role?_of_maps state', above''])
        above (lower'.trans lower.symm)
      rw [state] at state'
      cases state'
      exact WriteBuffer.admittedBy_of_nil (drained w (waits.symm.trans waiting')) d₂

/-- New maps have nothing waiting. -/
theorem Extends.admits {P : Front → Prop} (h : s.Extends s') (layout : s.Layout)
    (admits : ∀ m front, s.role? m = some (.over front) → P front → s.Admits m)
    (above : s'.role? m = some (.over front)) (holds : P front) : s'.Admits m := by
  intro st front' w d state above' waiting base
  obtain before | ⟨-, empty⟩ := h.new m st state
  · obtain rfl := front_of_role? above state above'
    have role : s.role? m = some (.over front') := by rw [role?_of_maps before, above']
    obtain ⟨-, x, lower, -⟩ := layout.below m front' role
    obtain ⟨d', base', -⟩ := direct_of_role? lower
    have same := h.old _ _ base'
    rw [base] at same
    cases same
    exact admits m front' role holds st front' w d before above' waiting base'
  · exact WriteBuffer.admittedBy_of_nil (empty w waiting) d

/-- The maps have their places and their names, and those over another with
this property can be drained. -/
structure Drainable (s : Store) (P : Front → Prop) (named : String → Option MapHandle) : Prop where
  layout : s.Layout
  roster : s.Roster named
  admits : ∀ m front, s.role? m = some (.over front) → P front → s.Admits m

namespace Drainable

variable {P : Front → Prop} {named : String → Option MapHandle}

/-- A move within the roles. -/
theorem move (h : s.Drainable P named) (layout : s'.Layout) (roles : s'.role? = s.role?)
    (admits : ∀ m front, s.role? m = some (.over front) → P front → s.Admits m → s'.Admits m) :
    s'.Drainable P named where
  layout := layout
  roster := h.roster.congr roles
  admits m front role holds := by
    rw [roles] at role
    exact admits m front role holds (h.admits m front role holds)

/-- A map is closed by itself, or by its engine. It is not below one of those
that can be drained. -/
theorem close (h : s.Drainable P named)
    (apart : ∀ k front, s.role? k = some (.over front) → P front → m ≠ front.backing) :
    (m.close.after s).Drainable P named := by
  obtain ⟨closes, -⟩ := close_runs h.layout m
  generalize m.close.after s = s' at closes
  induction closes with
  | refl => exact h
  | tail before move ih =>
    have roles := Runs.role? Closes.role? before
    refine move.elim (fun upkeep => ?_) fun closes => ?_
    · exact ih.move (upkeep.layout ih.layout) upkeep.role? fun _ _ _ _ => upkeep.admits ih.layout
    · refine ih.move (closes.layout ih.layout) closes.role? fun k front role holds => ?_
      refine closes.admits ih.layout role (apart k front ?_ holds)
      rw [← roles, role]

end Drainable

/-- Maps can be drained whatever is done, but for the close of a map below. -/
theorem drainable_upheld {storage : Option String} {P : Front → Prop}
    (coherent : ∀ front, P front → front.keyType.Coherent) :
    Upheld storage (fun x => ∀ front, P front → x ≠ front.backing)
      fun named s => s.Drainable P named where
  layout h := h.layout
  still h maps _ := h.move (h.layout.of_maps maps) (role?_congr maps)
    fun _ _ _ _ admits => admits.of_maps maps
  upkeep h move := h.move (move.layout h.layout) move.role? fun _ _ _ _ => move.admits h.layout
  writes h move := h.move (move.layout h.layout) move.role?
    fun _ front role holds => move.admits h.layout role (coherent front holds)
  closes m h may := h.close fun k front role holds => by
    obtain apart | ⟨name, given⟩ := may
    · exact apart front holds
    · exact (h.roster.top h.layout given k front role).symm
  adds _ _ lawful adds h := by
    obtain ⟨layout, roster⟩ := adds.laid lawful h.layout h.roster
    exact ⟨layout, roster, fun m front => adds.grows.admits h.layout h.admits⟩

/-! ## Draining -/

section Admits

variable (layout : s.Layout) (admits : s.Admits m)

include layout admits

/-- A merge makes all changes. -/
theorem Admits.merge (there : s.maps[m.index]? = some st) :
    ∃ stats s', m.merge s = .ok stats s' ∧ s'.Drained m := by
  obtain ⟨upkept, drained, refused⟩ := merge_ends layout m
  obtain ⟨stats, run⟩ | ⟨fault, run⟩ := Action.ends m.merge s
  · exact ⟨stats, _, run, drained stats _ run⟩
  · have still := upkept.admits layout admits
    obtain ⟨-, none |
      ⟨st', front, w, d, entry, cause, state, above, waiting, base, mem, refusal⟩⟩ :=
      refused fault _ run
    · rw [there] at none
      cases none
    · obtain ⟨previous, d', wrote⟩ := still st' front w d state above waiting base entry mem
      rw [refusal] at wrote
      cases wrote

/-- So does the switch to direct mode, of a map that has modes. -/
theorem Admits.switchToDirect (there : s.maps[m.index]? = some st) :
    ∃ switched s', m.switchToDirect s = .ok switched s' ∧
      ((∃ a, s.maps[m.index]? = some (.adaptive a)) → s'.Drained m) := by
  suffices answered : ∃ switched s', m.switchToDirect s = .ok switched s' by
    obtain ⟨switched, s', run⟩ := answered
    exact ⟨switched, s', run, fun ⟨_, state⟩ => switchToDirect_drained state run⟩
  cases plain : st.profile? with
  | none => exact ⟨false, s, Tick.switchTo_plain there plain .direct⟩
  | some p =>
    obtain ⟨a, rfl, -⟩ := MapState.adaptive_of_profile plain
    obtain ⟨-, run⟩ | ⟨fault, -, refused, -⟩ | ⟨stats, buffer, -, -, -, run⟩ :=
      MapHandle.switchToDirect_cases there
    · exact ⟨_, _, run⟩
    · obtain ⟨stats, s', run, -⟩ := admits.merge layout there
      rw [refused] at run
      cases run
    · exact ⟨_, _, run⟩

/-- A change that the map takes, the map below takes. -/
theorem Admits.taken_of_write {d : DirectMap} {depth : Nat} {key : Bytes} {c : Change}
    {previous : Option Bytes} (state : s.maps[m.index]? = some st) (above : st.role = .over front)
    (base : s.maps[front.backing.index]? = some (.direct d))
    (run : m.write depth key c s = .ok previous s') : d.Takes key c := by
  have top := role?_of_maps state
  rw [above] at top
  cases write_ends layout m depth key c with
  | refused refused =>
    rw [refused] at run
    cases run
  | memory state' =>
    rw [role?_of_maps state'] at top
    cases top
  | direct rests wrote =>
    obtain ⟨rfl, -⟩ := rests.of_over state above
    obtain rfl := rests.eq_of_base base
    exact ⟨_, _, wrote⟩
  | buffered state' above' waiting base' seen admitted =>
    rw [state] at state'
    cases state'
    rw [above] at above'
    cases above'
    rw [base] at base'
    cases base'
    obtain ⟨order, lawful, keyType, valueType⟩ := layout.order_buffer state above waiting base
    rw [keyType, valueType] at admitted
    have taken := admits st front _ d state above waiting base
    exact DirectMap.takes_iff.2 ⟨seen.elim taken.isOpen id, admitted⟩

end Admits

end Store

/-! ## Engines -/

section

open Store

variable {e : EngineHandle} {s s' s₀ : Store} {config : Config} {disk : Disk} {m : MapHandle}
  {front : Front}

/-- The direct map below makes every change that waits in this map and every
change that this map takes. A merge is answered and leaves nothing waiting, and
so is the switch to direct mode if the map has modes. -/
structure Store.Drains (s : Store) (m : MapHandle) (front : Front) : Prop where
  merges : ∃ stats s' bytes, m.merge s = .ok stats s' ∧ m.pending s' = .ok (0, bytes) s'
  switches : ∃ switched s', m.switchToDirect s = .ok switched s' ∧
    ((∃ a, s.maps[m.index]? = some (.adaptive a)) → ∃ bytes, m.pending s' = .ok (0, bytes) s')
  below : ∃ d, s.maps[front.backing.index]? = some (.direct d) ∧
    (∀ st w, s.maps[m.index]? = some st → st.buffer? = some w →
      ∀ entry ∈ w.snapshot, d.Takes entry.1 entry.2.change) ∧
    ∀ c key change answer s', Call.change? c = some (key, change) →
      c.perform m s = .ok answer s' → d.Takes key change

theorem Store.UpkeepMoves.pending (h : s.UpkeepMoves s') (above : s.role? m = some (.over front))
    (drained : s'.Drained m) : ∃ bytes, m.pending s' = .ok (0, bytes) s' := by
  rw [← h.role?] at above
  obtain ⟨st, state, -⟩ := over_of_role? above
  exact drained.pending state

/-- Where the map below takes all that waits, nothing that is taken blocks. -/
theorem Store.Admits.drains (admits : s.Admits m) (layout : s.Layout)
    (above : s.role? m = some (.over front)) : s.Drains m front := by
  obtain ⟨st, state, above'⟩ := over_of_role? above
  obtain ⟨d, rests⟩ := layout.rests_over state above'
  refine ⟨?_, ?_, d, rests.base, fun st' w state' waiting => ?_,
    fun c key change answer s' changes run => ?_⟩
  · obtain ⟨stats, s', run, drained⟩ := admits.merge layout state
    have upkept : s.UpkeepMoves (m.merge.after s) := (merge_moves layout m).1
    rw [Action.after_of_ok run] at upkept
    obtain ⟨bytes, pending⟩ := upkept.pending above drained
    exact ⟨stats, s', bytes, run, pending⟩
  · obtain ⟨switched, s', run, drained⟩ := admits.switchToDirect layout state
    have upkept : s.UpkeepMoves (m.switchToDirect.after s) := switchTo_moves layout m .direct
    rw [Action.after_of_ok run] at upkept
    exact ⟨switched, s', run, fun modes => upkept.pending above (drained modes)⟩
  · rw [state] at state'
    cases state'
    exact admits st front w d state above' waiting rests.base
  · obtain ⟨depth, same⟩ := Call.perform_of_change (m := m) changes s
    rw [same, Action.run_bind] at run
    obtain ⟨previous, wrote⟩ | ⟨fault, refused⟩ := Action.ends (m.write depth key change) s
    · exact admits.taken_of_write layout state above' rests.base wrote
    · rw [refused] at run
      cases run

namespace EngineHandle

/-- An engine that was just opened has no maps to be drained. -/
theorem holds_drainable (P : Front → Prop) (start : openWith config (.onDisk disk) = .ok e s₀) :
    s₀.Holds e config.storageDir fun named s => s.Drainable P named := by
  have empty : s₀.maps = [] := (works_of_openWith start).1
  exact holds_of_openWith start fun named nothing =>
    { layout := .of_empty empty
      roster := .of_empty empty nothing
      admits := fun m front role => by simp [role?_of_empty empty] at role }

/-- All maps that an engine built can be drained, in every store that comes of
it. -/
theorem drainable_of_openWith {P : Front → Prop} {acts : List Act}
    (start : openWith config (.onDisk disk) = .ok e s₀) (lawful : ∀ act ∈ acts, act.Lawful)
    (coherent : ∀ front, P front → front.keyType.Coherent)
    (apart : ∀ m, .shut m ∈ acts → ∀ front, P front → m ≠ front.backing) :
    ∃ named, (Act.run e s₀ acts).Drainable P named :=
  ((drainable_upheld coherent).run (holds_drainable P start) acts lawful apart).holds.1

/-- Whatever was done with an engine and with its maps, what a buffered map or
an adaptive map took does not block it: each change is one that the direct map
below makes, and a merge and the switch to direct mode are answered and leave
nothing waiting. So long as nobody closed that direct map by itself. -/
theorem taken_changes_drain {acts : List Act} (start : openWith config (.onDisk disk) = .ok e s₀)
    (lawful : ∀ act ∈ acts, act.Lawful)
    (above : (Act.run e s₀ acts).role? m = some (.over front))
    (coherent : front.keyType.Coherent) (apart : .shut front.backing ∉ acts) :
    (Act.run e s₀ acts).Drains m front := by
  obtain ⟨named, drainable⟩ := drainable_of_openWith
    (P := fun front => front.keyType.Coherent ∧ .shut front.backing ∉ acts) start lawful
    (fun _ => And.left) fun m mem front holds eq => holds.2 (eq ▸ mem)
  exact (drainable.admits m front above ⟨coherent, apart⟩).drains drainable.layout above

/-- A request for a buffered map of texts. -/
def stallMap : Opening := ⟨"a", .buffered, .string, .string, none, false⟩

/-- The map opened in the depot. -/
def stallOpened : Store := (stallMap.perform ⟨0⟩).after depotStart

/-- What the map stands on. -/
def stallFront : Front := ⟨"a", 1, ⟨0⟩, .string, .string⟩

/-- A key is removed that no text encodes. -/
def stallActs : List Act := [.deed (.opened stallMap), .deed (.called (.remove [255]) ⟨1⟩)]

/-- The map with the removal. -/
def stallRemoved : Store :=
  stallOpened.set ⟨1⟩ (.buffered
    ⟨stallFront, ((WriteBuffer.empty DataType.string.compare).insert [255] .tombstone).2, false⟩)

/-- A buffered map that is open takes a change that its data types admit. -/
theorem run_called_buffered {x : BufferedMap} {d : DirectMap} {c : Call} {key : Bytes}
    {change : Change} (changes : c.change? = some (key, change))
    (state : s.maps[m.index]? = some (.buffered x)) (isOpen : x.closed = false)
    (base : s.maps[x.backing.index]? = some (.direct d)) (alive : d.closed = false)
    (admitted : PlainMap.checkChange x.keyType x.valueType key change = .ok ()) :
    ∃ answer, c.perform m s =
      .ok answer (s.set m (.buffered { x with buffer := (x.buffer.insert key change).2 })) := by
  obtain ⟨depth, same⟩ := Call.perform_of_change (m := m) changes s
  obtain ⟨previous, wrote⟩ := writeBuffered_ok x.buffer state base admitted (.inr alive)
  refine ⟨.value previous, ?_⟩
  rw [same, Action.run_bind, MapHandle.write_buffered state isOpen, wrote]
  rfl

theorem run_stallActs : Act.run ⟨0⟩ depotStart stallActs = stallRemoved := by
  have state : stallOpened.maps[1]? = some (.buffered
      ⟨stallFront, .empty DataType.string.compare, false⟩) := rfl
  have base : stallOpened.maps[0]? = some (.direct { depotEmpty "a" 1 with
      keyType := .string, valueType := .string }) := rfl
  obtain ⟨answer, removed⟩ :=
    run_called_buffered (m := ⟨1⟩) (c := .remove [255]) rfl state rfl base rfl rfl
  exact Action.after_of_ok removed

/-- The removal waits, and does not block the map. -/
theorem stall_drains :
    openWith depot (.onDisk .empty) = .ok ⟨0⟩ depotStart ∧
      (Act.run ⟨0⟩ depotStart stallActs).role? ⟨1⟩ = some (.over stallFront) ∧
      (DataType.string.validate [255]).isOk = false ∧
      (⟨1⟩ : MapHandle).pending (Act.run ⟨0⟩ depotStart stallActs) =
        .ok (1, 1) (Act.run ⟨0⟩ depotStart stallActs) ∧
      (Act.run ⟨0⟩ depotStart stallActs).Drains ⟨1⟩ stallFront := by
  have texts : Std.TransCmp DataType.string.compare := inferInstanceAs (Std.TransCmp Bytes.compare)
  have lawful : ∀ act ∈ stallActs, act.Lawful := by
    simp [stallActs, Act.Lawful, Deed.Lawful, stallMap, texts]
  have start : openWith depot (.onDisk .empty) = .ok ⟨0⟩ depotStart := rfl
  have above : (Act.run ⟨0⟩ depotStart stallActs).role? ⟨1⟩ = some (.over stallFront) := by
    rw [run_stallActs]
    rfl
  have apart : .shut stallFront.backing ∉ stallActs := by simp [stallActs]
  have coherent : stallFront.keyType.Coherent := DataType.coherent_of_mem (by simp [stallFront])
  refine ⟨start, above, by decide +kernel, ?_,
    taken_changes_drain start lawful above coherent apart⟩
  rw [run_stallActs]
  rfl

/-- A request for a buffered map of words in small letters. -/
def wordMap : Opening := ⟨"a", .buffered, .smallLetters, .bytes, none, false⟩

/-- The map opened in the depot. -/
def wordOpened : Store := (wordMap.perform ⟨0⟩).after depotStart

/-- What the map stands on. -/
def wordFront : Front := ⟨"a", 1, ⟨0⟩, .smallLetters, .bytes⟩

/-- A word is removed in capitals and then put in small letters. -/
def wordActs : List Act :=
  [.deed (.opened wordMap), .deed (.called (.remove [75]) ⟨1⟩),
    .deed (.called (.put [107] [118]) ⟨1⟩)]

/-- What waits after the removal. -/
def wordRemoved : WriteBuffer :=
  ((WriteBuffer.empty DataType.smallLetters.compare).insert [75] .tombstone).2

/-- The map with the put, its key spelled as in the removal. -/
def wordPut : Store :=
  wordOpened.set ⟨1⟩ (.buffered ⟨wordFront, (wordRemoved.insert [107] (.value [118])).2, false⟩)

/-- The map takes both changes. -/
theorem run_wordActs : Act.run ⟨0⟩ depotStart wordActs = wordPut := by
  obtain ⟨d, base, alive⟩ : ∃ d, wordOpened.maps[0]? = some (.direct d) ∧ d.closed = false :=
    ⟨_, rfl, rfl⟩
  obtain ⟨answer, removed⟩ := run_called_buffered (m := ⟨1⟩) (s := wordOpened) (c := .remove [75])
    (x := ⟨wordFront, .empty DataType.smallLetters.compare, false⟩) rfl rfl rfl base alive rfl
  obtain ⟨answer', put⟩ := run_called_buffered (m := ⟨1⟩) (c := .put [107] [118])
    (s := wordOpened.set ⟨1⟩ (.buffered ⟨wordFront, wordRemoved, false⟩))
    (x := ⟨wordFront, wordRemoved, false⟩) rfl rfl rfl base alive rfl
  have after : ((Call.put [107] [118]).perform ⟨1⟩).after
      (((Call.remove [75]).perform ⟨1⟩).after wordOpened) = wordPut := by
    rw [Action.after_of_ok removed]
    exact Action.after_of_ok put
  exact after

/-- The put blocks the map: the map below does not admit the spelling of the
removal, so a merge is refused and leaves all as it was. A buffer may take what
the map below does not take, if keys that compare equal are not admitted alike. -/
theorem word_blocks :
    openWith depot (.onDisk .empty) = .ok ⟨0⟩ depotStart ∧ (∀ act ∈ wordActs, act.Lawful) ∧
      (Act.run ⟨0⟩ depotStart wordActs).role? ⟨1⟩ = some (.over wordFront) ∧
      .shut wordFront.backing ∉ wordActs ∧
      (⟨1⟩ : MapHandle).merge (Act.run ⟨0⟩ depotStart wordActs) =
        .error (.error (.mergeFailed "a" (StoreError.invalidKey "small" "capital letter").message))
          (Act.run ⟨0⟩ depotStart wordActs) ∧
      (⟨1⟩ : MapHandle).pending (Act.run ⟨0⟩ depotStart wordActs) =
        .ok (1, 2) (Act.run ⟨0⟩ depotStart wordActs) := by
  have words : Std.TransCmp DataType.smallLetters.compare := inferInstance
  rw [run_wordActs]
  refine ⟨rfl, by simp [wordActs, Act.Lawful, Deed.Lawful, wordMap, words], rfl,
    by simp [wordActs], ?_, rfl⟩
  have refused : ∀ depth, (⟨0⟩ : MapHandle).write depth [75] (.value [118]) wordPut =
      .error (.error (.invalidKey "small" "capital letter")) wordPut := by
    intro depth
    rw [MapHandle.write_direct rfl]
    rfl
  have copied : (wordRemoved.insert [107] (.value [118])).2.snapshot =
    [([75], ⟨.value [118], 2⟩)] := rfl
  have below : wordFront.backing = ⟨0⟩ := rfl
  rw [MapHandle.run_merge_buffered (x := ⟨wordFront, _, false⟩) rfl]
  simp only [MapHandle.drain, copied, List.foldlM_cons, List.foldlM_nil, MapHandle.mergeSlot,
    Action.run_pendingArrivals, Action.run_bind, Action.run_attempt, below, refused]
  rfl

end EngineHandle

end

end MapStore
