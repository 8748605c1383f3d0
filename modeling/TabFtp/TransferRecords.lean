import TabFtp.TransferScheduler
import TabFtp.TransferTree

/-!
# The records of the engines

A record that is active has an item or lists a directory, and a record that
is not active has none.  Every active item is assigned to one record.
-/

namespace TabFtp

namespace TransferQueue

variable {known : ℕ → Prop} {nextAddress : ℕ} {items changed : Items}
  {engineDataOf : ItemId → Option ℕ} {engineData : List EngineData}
  {data other : EngineData} {change : EngineData → EngineData} {id : ItemId}

/-- What holds of one record.  The engines of browsing connections that are
`known` are used. -/
structure DataSound (known : ℕ → Prop) (nextAddress : ℕ) (items : Items)
    (engineDataOf : ItemId → Option ℕ) (data : EngineData) : Prop where
  address : data.address < nextAddress
  own : data.transient = false → data.engine = .own data.address
  browsing : data.transient = true →
    ∃ context, data.engine = .browsing context ∧ known context
  waiting : data.state = .waitprimary → data.transient = true
  idle : data.active = false →
    data.item = none ∧ (data.state = .none ∨ data.state = .waitprimary)
  listing : data.active = true → data.item = none →
    data.state = .list ∧ data.transient = false
  busy : ∀ id, data.item = some id →
    data.active = true ∧ data.state ≠ .none ∧ data.state ≠ .list
  item : ∀ id, data.item = some id →
    items.isActive id = true ∧ engineDataOf id = some data.address

structure RecordsSound (known : ℕ → Prop) (nextAddress : ℕ) (items : Items)
    (engineDataOf : ItemId → Option ℕ) (engineData : List EngineData) :
    Prop where
  addresses : UniqueKeys.Unique EngineData.address engineData
  engines : UniqueKeys.Unique EngineData.engine engineData
  each : ∀ data ∈ engineData,
    DataSound known nextAddress items engineDataOf data
  owned : ∀ id, items.isActive id = true →
    ∃ data ∈ engineData, data.item = some id

theorem DataSound.congr
    (hsound : DataSound known nextAddress items engineDataOf data)
    {pointers : ItemId → Option ℕ} {bound : ℕ} (hbound : nextAddress ≤ bound)
    (hsame : ∀ id, data.item = some id →
      changed.isActive id = items.isActive id ∧
        pointers id = engineDataOf id) :
    DataSound known bound changed pointers data := by
  constructor
  · exact hsound.address.trans_le hbound
  · exact hsound.own
  · exact hsound.browsing
  · exact hsound.waiting
  · exact hsound.idle
  · exact hsound.listing
  · exact hsound.busy
  · intro id hid
    obtain ⟨hactive, hpointer⟩ := hsame id hid
    rw [hactive, hpointer]
    exact hsound.item id hid

theorem RecordsSound.calm
    (hsound : RecordsSound known nextAddress items engineDataOf engineData)
    (hsame : ∀ id, changed.isActive id = items.isActive id) :
    RecordsSound known nextAddress changed engineDataOf engineData := by
  constructor
  · exact hsound.addresses
  · exact hsound.engines
  · intro data hdata
    exact (hsound.each data hdata).congr (Nat.le_refl _)
      fun id _ => ⟨hsame id, rfl⟩
  · intro id hactive
    exact hsound.owned id ((hsame id) ▸ hactive)

theorem RecordsSound.owner_unique
    (hsound : RecordsSound known nextAddress items engineDataOf engineData)
    (hdata : data ∈ engineData) (hother : other ∈ engineData)
    (hitem : data.item = some id) (hsame : other.item = some id) :
    other = data := by
  have hfirst := ((hsound.each data hdata).item id hitem).2
  have hsecond := ((hsound.each other hother).item id hsame).2
  rw [hfirst] at hsecond
  exact hsound.addresses.eq_of_key hother hdata (Option.some.inj hsecond).symm

theorem RecordsSound.write
    (hsound : RecordsSound known nextAddress items engineDataOf engineData)
    (hdata : data ∈ engineData)
    (haddress : ∀ data, (change data).address = data.address)
    (hengine : ∀ data, (change data).engine = data.engine)
    {pointers : ItemId → Option ℕ}
    (hchanged : DataSound known nextAddress changed pointers (change data))
    (hothers : ∀ other ∈ engineData, other ≠ data → ∀ id,
      other.item = some id → changed.isActive id = items.isActive id ∧
        pointers id = engineDataOf id)
    (howned : ∀ id, changed.isActive id = true →
      (change data).item = some id ∨
        items.isActive id = true ∧ data.item ≠ some id) :
    RecordsSound known nextAddress changed pointers
      (UniqueKeys.write EngineData.address data.address change
        engineData) := by
  have hmember : ∀ other, other ∈ UniqueKeys.write EngineData.address
      data.address change engineData ↔ other = change data ∨
        other ∈ engineData ∧ other ≠ data := by
    intro other
    rw [UniqueKeys.mem_write_iff hsound.addresses hdata]
    apply or_congr_right
    apply and_congr_right
    intro hother
    exact ⟨fun hne heq => hne (heq ▸ rfl), fun hne hkey =>
      hne (hsound.addresses.eq_of_key hother hdata hkey)⟩
  constructor
  · exact hsound.addresses.write haddress
  · apply hsound.engines.map
    intro other _
    split
    · exact hengine other
    · rfl
  · intro other hother
    rcases (hmember other).mp hother with rfl | ⟨hother, hne⟩
    · exact hchanged
    · exact (hsound.each other hother).congr (Nat.le_refl _)
        (hothers other hother hne)
  · intro id hactive
    rcases howned id hactive with hitem | ⟨hbefore, hnot⟩
    · exact ⟨change data, (hmember _).mpr (Or.inl rfl), hitem⟩
    · obtain ⟨other, hother, hitem⟩ := hsound.owned id hbefore
      refine ⟨other, (hmember other).mpr (Or.inr ⟨hother, ?_⟩), hitem⟩
      intro heq
      exact hnot (heq ▸ hitem)

theorem RecordsSound.writeState
    (hsound : RecordsSound known nextAddress items engineDataOf engineData)
    (hdata : data ∈ engineData)
    (haddress : ∀ data, (change data).address = data.address)
    (hengine : ∀ data, (change data).engine = data.engine)
    (hitem : (change data).item = data.item)
    (hchanged : DataSound known nextAddress items engineDataOf
      (change data)) :
    RecordsSound known nextAddress items engineDataOf
      (UniqueKeys.write EngineData.address data.address change
        engineData) := by
  apply hsound.write hdata haddress hengine hchanged
  · intro other _ _ id _
    exact ⟨rfl, rfl⟩
  · intro id hactive
    by_cases hthis : data.item = some id
    · exact Or.inl (hitem.trans hthis)
    · exact Or.inr ⟨hactive, hthis⟩

theorem RecordsSound.append
    (hsound : RecordsSound known nextAddress items engineDataOf engineData)
    (haddress : data.address = nextAddress)
    (hengine : ∀ other ∈ engineData, other.engine ≠ data.engine)
    (hdata : DataSound known (nextAddress + 1) items engineDataOf data) :
    RecordsSound known (nextAddress + 1) items engineDataOf
      (engineData ++ [data]) := by
  constructor
  · apply hsound.addresses.append_singleton
    intro other hother
    rw [haddress]
    exact (hsound.each other hother).address.ne
  · exact hsound.engines.append_singleton hengine
  · intro other hother
    rcases List.mem_append.mp hother with hold | hnew
    · exact (hsound.each other hold).congr (Nat.le_succ _)
        fun _ _ => ⟨rfl, rfl⟩
    · exact List.mem_singleton.mp hnew ▸ hdata
  · intro id hactive
    obtain ⟨owner, howner, hitem⟩ := hsound.owned id hactive
    exact ⟨owner, List.mem_append_left _ howner, hitem⟩

theorem RecordsSound.filter
    (hsound : RecordsSound known nextAddress items engineDataOf engineData)
    {keep : EngineData → Bool}
    (hkeep : ∀ data, data.active = true → keep data = true) :
    RecordsSound known nextAddress items engineDataOf
      (engineData.filter keep) := by
  constructor
  · exact hsound.addresses.filter keep
  · exact hsound.engines.filter keep
  · intro data hdata
    exact hsound.each data (List.mem_of_mem_filter hdata)
  · intro id hactive
    obtain ⟨owner, howner, hitem⟩ := hsound.owned id hactive
    have hbusy := ((hsound.each owner howner).busy id hitem).1
    exact ⟨owner, List.mem_filter.mpr ⟨howner, hkeep owner hbusy⟩, hitem⟩

theorem RecordsSound.own_ne
    (hsound : RecordsSound known nextAddress items engineDataOf engineData)
    (hdata : data ∈ engineData) : data.engine ≠ .own nextAddress := by
  have hthis := hsound.each data hdata
  intro heq
  cases htransient : data.transient with
  | false =>
      have hown := hthis.own htransient
      rw [heq] at hown
      have haddress := hthis.address
      cases hown
      omega
  | true =>
      obtain ⟨context, hbrowsing, _⟩ := hthis.browsing htransient
      rw [heq] at hbrowsing
      cases hbrowsing

end TransferQueue

end TabFtp
