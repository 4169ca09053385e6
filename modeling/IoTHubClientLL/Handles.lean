import IoTHubClientLL.ConnectionString

/-!
# The string handles `IoTHubClient_LL_CreateFromConnectionString` leaves live

`HeapAccount` splits the live handles during the parse into three parts:

* the handles live when the loop starts (`base`);
* the clones the three clone variables point to (`ParseLocals.owned`), which the cleanup
  deletes;
* the clones that a later pair with the same key has overwritten, which nothing deletes.

The body keeps the account on every pair, whatever each allocation does
(`HeapAccount.parsePair`). The clone the body overwrites (`ParseLocals.overwritten`) moves to
the third part. The results:

* For every input and every outcome of every allocation, the call returns. Every handle live
  before it is still live, and every other handle left live is one the call allocated
  (`createFromConnectionString_releases`).
* On connection strings of the grammar, with every allocation succeeding, exactly one clone
  per overridden `DeviceId`, `SharedAccessKey` or `GatewayHostName` pair is left live
  (`createFromConnectionString_live`).
-/

namespace IoTHubClientLL

/-! ## Allocating -/

theorem Heap.obtain_live (alloc : ℕ → Bool) (heap : Heap) :
    (heap.obtain alloc).2.live = (heap.obtain alloc).1.toList ++ heap.live := by
  unfold Heap.obtain
  split_ifs <;> rfl

theorem Heap.obtain_next (alloc : ℕ → Bool) (heap : Heap) :
    (heap.obtain alloc).2.next = heap.next + 1 := by
  unfold Heap.obtain
  split_ifs <;> rfl

theorem Heap.mem_obtain {alloc : ℕ → Bool} {heap : Heap} {x : StringHandle}
    (hx : x ∈ (heap.obtain alloc).1) : x = heap.next := by
  unfold Heap.obtain at hx
  split_ifs at hx <;> simp_all

theorem Heap.obtain_eq_spec {alloc : ℕ → Bool} {heap heap' : Heap} {o : Option StringHandle}
    (h : heap.obtain alloc = (o, heap')) :
    heap'.live = o.toList ++ heap.live ∧ heap.next ≤ heap'.next := by
  have h₁ := Heap.obtain_live alloc heap
  have h₂ := Heap.obtain_next alloc heap
  rw [h] at h₁ h₂
  exact ⟨h₁, h₂ ▸ Nat.le_succ _⟩

/-- One of the allocations before the loop, made only when the one before it succeeded. -/
theorem Heap.obtain_if_spec {c : Bool} {alloc : ℕ → Bool} {heap heap' : Heap}
    {o : Option StringHandle} (h : (if c then heap.obtain alloc else (none, heap)) = (o, heap')) :
    heap'.live = o.toList ++ heap.live ∧ heap.next ≤ heap'.next := by
  split_ifs at h
  · exact Heap.obtain_eq_spec h
  · cases h
    exact ⟨rfl, le_refl _⟩

theorem Heap.deleteIfSome_live (o : Option StringHandle) (heap : Heap) :
    ((heap.deleteIfSome o).live : Multiset StringHandle) = ↑heap.live - ↑o.toList := by
  cases o with
  | none => simp [Heap.deleteIfSome]
  | some h => simp [Heap.deleteIfSome, Heap.delete, Multiset.sub_singleton, Multiset.coe_erase]

/-! ## The account -/

/-- The clones the three clone variables point to: what the cleanup deletes of them. -/
def ParseLocals.owned (l : ParseLocals) : Multiset StringHandle :=
  ↑l.deviceKeyString.toList + ↑l.deviceIdString.toList + ↑l.protocolGateway.toList

/-- The clone the body overwrites on the current pair: the one the variable of its key points
to, if the key is `DeviceId`, `SharedAccessKey` or `GatewayHostName`. -/
def ParseLocals.overwritten (l : ParseLocals) : Multiset StringHandle :=
  if l.tokenString = DEVICEID_TOKEN then ↑l.deviceIdString.toList
  else if l.tokenString = DEVICEKEY_TOKEN then ↑l.deviceKeyString.toList
  else if l.tokenString = PROTOCOL_GATEWAY_HOST then ↑l.protocolGateway.toList
  else 0

/-- The live handles of the locals `l` are those of `base`, the clones the variables point
to, and the overwritten clones `leaked`; those clones are at or above `n`. -/
structure HeapAccount (base : Multiset StringHandle) (n : ℕ) (leaked : Multiset StringHandle)
    (l : ParseLocals) : Prop where
  live : ↑l.heap.live = l.owned + leaked + base
  ge : ∀ x ∈ l.owned + leaked, n ≤ x
  next_ge : n ≤ l.heap.next

section Account

variable {base leaked : Multiset StringHandle} {n : ℕ} {l : ParseLocals}

/-- A clone step: the variable of the key is overwritten with what the allocation returned;
the clone `o` it pointed to stays live and joins the overwritten ones. -/
theorem HeapAccount.clone (h : HeapAccount base n leaked l) (alloc : ℕ → Bool)
    {l' : ParseLocals} {o : Option StringHandle} (hheap : l'.heap = (l.heap.obtain alloc).2)
    (hown : l'.owned + ↑o.toList = ↑(l.heap.obtain alloc).1.toList + l.owned) :
    HeapAccount base n (leaked + ↑o.toList) l' := by
  have hsplit : l'.owned + (leaked + ↑o.toList) =
      ↑(l.heap.obtain alloc).1.toList + (l.owned + leaked) := by
    rw [← add_assoc, add_right_comm, hown, add_assoc]
  refine ⟨?_, ?_, by rw [hheap, Heap.obtain_next]; exact Nat.le_succ_of_le h.next_ge⟩
  · rw [hsplit, hheap, Heap.obtain_live, ← Multiset.coe_add, h.live]
    abel
  · rw [hsplit]
    intro x hx
    rcases Multiset.mem_add.mp hx with hx | hx
    exacts [Heap.mem_obtain (by simpa using hx) ▸ h.next_ge, h.ge x hx]

/-- A `HostName` pair makes and destroys a second tokenizer: whatever the allocations do, the
live handles and the clone variables stay as they were. -/
theorem parsePair_hostName_frame (alloc : ℕ → Bool) (hk : l.tokenString = HOSTNAME_TOKEN) :
    (parsePair alloc l).2.heap.live = l.heap.live ∧
      l.heap.next ≤ (parsePair alloc l).2.heap.next ∧ (parsePair alloc l).2.owned = l.owned := by
  simp only [parsePair, hk, if_true, Heap.obtain]
  split_ifs
  · dsimp only
    repeat' split
    all_goals simp [Heap.delete, ParseLocals.owned]
  · simp [ParseLocals.owned]

/-- **The body keeps the account** on every pair and for every outcome of its allocations; the
clone it overwrites joins the overwritten ones. -/
theorem HeapAccount.parsePair (h : HeapAccount base n leaked l) (alloc : ℕ → Bool) :
    HeapAccount base n (leaked + l.overwritten) (parsePair alloc l).2 := by
  obtain ⟨h₁, h₂, h₃, h₄, h₅, h₆⟩ := keys_distinct
  by_cases hk₁ : l.tokenString = HOSTNAME_TOKEN
  · obtain ⟨hlive, hnext, hown⟩ := parsePair_hostName_frame alloc hk₁
    have : l.overwritten = 0 := by simp [ParseLocals.overwritten, hk₁, h₁, h₂, h₃]
    rw [this, add_zero]
    exact ⟨by rw [hlive, hown, h.live], hown ▸ h.ge, h.next_ge.trans hnext⟩
  by_cases hk₂ : l.tokenString = DEVICEID_TOKEN
  · rw [parsePair_deviceId alloc hk₂, ParseLocals.overwritten, if_pos hk₂]
    exact h.clone alloc rfl (by simp only [ParseLocals.owned]; abel)
  by_cases hk₃ : l.tokenString = DEVICEKEY_TOKEN
  · rw [parsePair_deviceKey alloc hk₃, ParseLocals.overwritten, if_neg hk₂, if_pos hk₃]
    exact h.clone alloc rfl (by simp only [ParseLocals.owned]; abel)
  by_cases hk₄ : l.tokenString = PROTOCOL_GATEWAY_HOST
  · rw [parsePair_protocolGateway alloc hk₄, ParseLocals.overwritten, if_neg hk₂, if_neg hk₃,
      if_pos hk₄]
    exact h.clone alloc rfl (by simp only [ParseLocals.owned]; abel)
  · rw [parsePair_other alloc hk₁ hk₂ hk₃ hk₄, ParseLocals.overwritten, if_neg hk₂, if_neg hk₃,
      if_neg hk₄, add_zero]
    exact h

/-- The account reads only the heap and the clone variables. -/
theorem HeapAccount.of_eq (h : HeapAccount base n leaked l) {l' : ParseLocals}
    (hheap : l'.heap = l.heap) (hown : l'.owned = l.owned) : HeapAccount base n leaked l' :=
  ⟨by rw [hheap, hown, h.live], hown ▸ h.ge, hheap ▸ h.next_ge⟩

/-- The body on the locals the loop hands it: the key, the value, and what the tokenizer has
left. -/
theorem HeapAccount.parsePair_read (h : HeapAccount base n leaked l) (alloc : ℕ → Bool)
    (t k v : List Char) :
    HeapAccount base n
      (leaked + ({ l with tokenizer1 := t, tokenString := k, valueString := v } :
        ParseLocals).overwritten)
      (IoTHubClientLL.parsePair alloc { l with
        tokenizer1 := t
        tokenString := k
        valueString := v }).2 := by
  have h₁ : HeapAccount base n leaked { l with
      tokenizer1 := t
      tokenString := k
      valueString := v } := h.of_eq rfl rfl
  exact h₁.parsePair alloc

/-- The loop keeps the account, whatever the input and the allocations. -/
theorem HeapAccount.parseLoop (alloc : ℕ → Bool) :
    ∀ (fuel : ℕ) {l l' : ParseLocals} {leaked : Multiset StringHandle},
      parseLoop alloc fuel l = some l' → HeapAccount base n leaked l →
      ∃ leaked', HeapAccount base n leaked' l'
  | 0, _, _, _, hl, _ => nomatch hl
  | fuel + 1, l, l', leaked, hl, h => by
    unfold IoTHubClientLL.parseLoop at hl
    split at hl
    · cases hl
      exact ⟨leaked, h⟩
    · rename_i token rest₁ _
      dsimp only at hl
      split at hl
      · cases hl
        exact ⟨leaked, h.of_eq rfl rfl⟩
      · rename_i value rest₂ _
        have h' := h.parsePair_read alloc rest₂ token value
        split at hl
        · exact HeapAccount.parseLoop alloc fuel hl h'
        · cases hl
          exact ⟨_, h'⟩

/-- **The cleanup.** Deleting what the clone variables point to and the six handles
allocated before the loop, in the source's order, leaves the overwritten clones and what was
live before the call. -/
theorem HeapAccount.cleanup (h : HeapAccount base n leaked l) {heap : Heap}
    (c₁ c₂ c₃ c₄ c₅ c₆ : Option StringHandle)
    (hbase : base = ↑c₆.toList + ↑c₅.toList + ↑c₄.toList + ↑c₃.toList + ↑c₂.toList +
      ↑c₁.toList + ↑heap.live) :
    ↑(l.heap |>.deleteIfSome l.deviceKeyString |>.deleteIfSome l.deviceIdString
      |>.deleteIfSome c₆ |>.deleteIfSome c₅ |>.deleteIfSome c₄ |>.deleteIfSome c₃
      |>.deleteIfSome c₁ |>.deleteIfSome l.protocolGateway |>.deleteIfSome c₂).live =
      leaked + (↑heap.live : Multiset StringHandle) := by
  simp only [Heap.deleteIfSome_live, tsub_tsub]
  apply tsub_eq_of_eq_add
  rw [h.live, hbase]
  simp only [ParseLocals.owned]
  abel

end Account

/-! ## The whole call -/

/-- **`IoTHubClient_LL_CreateFromConnectionString` frees nothing it does not own, and leaks
only what it allocated.** For every connection string, protocol and configuration `malloc`,
and every outcome of every handle allocation, the call returns (its loop ends). Every handle
live before the call is still live after it, and every other handle left live is one the call
allocated. -/
theorem createFromConnectionString_releases (connectionString : Option (List Char))
    (protocol : Option Ptr) (malloc : Bool) (alloc : ℕ → Bool) (env : CreateEnv) (heap : Heap) :
    ∃ r, createFromConnectionString connectionString protocol malloc alloc env heap = some r ∧
      ∃ leaked : Multiset StringHandle, ↑r.2.2.live = leaked + ↑heap.live ∧
        ∀ x ∈ leaked, heap.next ≤ x := by
  rcases connectionString with _ | cs
  · exact ⟨_, rfl, 0, by simp, by simp⟩
  rcases protocol with _ | p
  · exact ⟨_, rfl, 0, by simp, by simp⟩
  cases malloc
  · exact ⟨_, rfl, 0, by simp, by simp⟩
  simp only [createFromConnectionString, if_true, not_true_eq_false, if_false]
  rcases h₁ : heap.obtain alloc with ⟨c₁, hp₁⟩
  rcases h₂ : (if c₁.isSome = true then Heap.obtain alloc hp₁ else (none, hp₁)) with ⟨c₂, hp₂⟩
  rcases h₃ : (if c₂.isSome = true then Heap.obtain alloc hp₂ else (none, hp₂)) with ⟨c₃, hp₃⟩
  rcases h₄ : (if c₃.isSome = true then Heap.obtain alloc hp₃ else (none, hp₃)) with ⟨c₄, hp₄⟩
  rcases h₅ : (if c₄.isSome = true then Heap.obtain alloc hp₄ else (none, hp₄)) with ⟨c₅, hp₅⟩
  rcases h₆ : (if c₅.isSome = true then Heap.obtain alloc hp₅ else (none, hp₅)) with ⟨c₆, hp₆⟩
  obtain ⟨e₁, n₁⟩ := Heap.obtain_eq_spec h₁
  obtain ⟨e₂, n₂⟩ := Heap.obtain_if_spec h₂
  obtain ⟨e₃, n₃⟩ := Heap.obtain_if_spec h₃
  obtain ⟨e₄, n₄⟩ := Heap.obtain_if_spec h₄
  obtain ⟨e₅, n₅⟩ := Heap.obtain_if_spec h₅
  obtain ⟨e₆, n₆⟩ := Heap.obtain_if_spec h₆
  have hbase : (↑hp₆.live : Multiset StringHandle) = ↑c₆.toList + ↑c₅.toList + ↑c₄.toList +
      ↑c₃.toList + ↑c₂.toList + ↑c₁.toList + ↑heap.live := by
    rw [e₆, e₅, e₄, e₃, e₂, e₁]
    simp only [Multiset.coe_add, List.append_assoc]
  have h₀ : HeapAccount ↑hp₆.live heap.next 0
      ⟨⟨some p, none, none, none, none, none⟩, cs, [], [], [], [], none, none, none, hp₆⟩ :=
    ⟨by simp [ParseLocals.owned], by simp [ParseLocals.owned], by dsimp only; omega⟩
  split
  · obtain ⟨l', hl'⟩ := Option.isSome_iff_exists.mp (parseLoop_isSome alloc (cs.length + 1)
      ⟨⟨some p, none, none, none, none, none⟩, cs, [], [], [], [], none, none, none, hp₆⟩
      (Nat.lt_succ_self _))
    obtain ⟨leaked, hacc⟩ := HeapAccount.parseLoop alloc _ hl' h₀
    rw [hl']
    exact ⟨_, rfl, leaked, hacc.cleanup c₁ c₂ c₃ c₄ c₅ c₆ hbase,
      fun x hx => hacc.ge x (Multiset.mem_add.mpr (.inr hx))⟩
  · exact ⟨_, rfl, 0, by simpa using h₀.cleanup c₁ c₂ c₃ c₄ c₅ c₆ hbase, by simp⟩

/-! ## Connection strings of the grammar -/

/-- The number of pairs with the key `key` that a later pair with that key overrides. -/
def overridden (key : List Char) (pairs : List (List Char × List Char)) : ℕ :=
  pairs.countP (fun kv => kv.1 = key) - 1

/-- The clones a connection string leaks: one per overridden `DeviceId`, `SharedAccessKey`
or `GatewayHostName` pair. -/
def leakedClones (pairs : List (List Char × List Char)) : ℕ :=
  overridden DEVICEID_TOKEN pairs + overridden DEVICEKEY_TOKEN pairs +
    overridden PROTOCOL_GATEWAY_HOST pairs

@[simp] theorem countP_key_snoc (key : List Char) (done : List (List Char × List Char))
    (k v : List Char) :
    (done ++ [(k, v)]).countP (fun kv => kv.1 = key) =
      done.countP (fun kv => kv.1 = key) + if k = key then 1 else 0 := by
  rw [List.countP_append, List.countP_singleton]
  by_cases h : k = key <;> simp [h]

theorem toList_length_add_pred {o : Option StringHandle} {c : ℕ} (h : o.isSome ↔ 0 < c) :
    o.toList.length + (c - 1) = c := by
  cases o <;> simp at h ⊢ <;> omega

/-- The account along the pairs `done` of a connection string of the grammar, every
allocation succeeding: one overwritten clone per overridden pair, and a clone variable set
exactly when its key has occurred. -/
structure CloneAccount (base : Multiset StringHandle) (n : ℕ)
    (done : List (List Char × List Char)) (l : ParseLocals) : Prop where
  account : ∃ leaked, HeapAccount base n leaked l ∧ Multiset.card leaked = leakedClones done
  deviceId : l.deviceIdString.isSome ↔ 0 < done.countP fun kv => kv.1 = DEVICEID_TOKEN
  deviceKey : l.deviceKeyString.isSome ↔ 0 < done.countP fun kv => kv.1 = DEVICEKEY_TOKEN
  protocolGateway :
    l.protocolGateway.isSome ↔ 0 < done.countP fun kv => kv.1 = PROTOCOL_GATEWAY_HOST

/-- **The body keeps the count**: a clone pair overwrites a clone exactly when its key has
occurred before. -/
theorem cloneAccount_bodyInvariant (base : Multiset StringHandle) (n : ℕ) :
    BodyInvariant (CloneAccount base n) := by
  intro done l t k v hwf ⟨⟨leaked, hacc, hcard⟩, hD, hK, hG⟩
  have hacc' := hacc.parsePair_read (fun _ => true) t k v
  obtain ⟨h₁, h₂, h₃, h₄, h₅, h₆⟩ := keys_distinct
  have hcount := fun key => countP_key_snoc key done k v
  by_cases hk₁ : k = HOSTNAME_TOKEN
  · subst hk₁
    refine ⟨⟨_, hacc', ?_⟩, ?_, ?_, ?_⟩
    · simp [ParseLocals.overwritten, hcard, leakedClones, overridden, h₁, h₂, h₃]
    all_goals rw [parsePair_hostName rfl hwf]; simp [hD, hK, hG, h₁, h₂, h₃]
  by_cases hk₂ : k = DEVICEID_TOKEN
  · subst hk₂
    have := toList_length_add_pred hD
    refine ⟨⟨_, hacc', ?_⟩, ?_, ?_, ?_⟩
    · simp only [Multiset.card_add, hcard, ParseLocals.overwritten, if_true, Multiset.coe_card,
        leakedClones, overridden, hcount, if_neg h₄, if_neg h₅]
      omega
    all_goals rw [parsePair_deviceId _ rfl]; simp [hK, hG, h₄, h₅]
  by_cases hk₃ : k = DEVICEKEY_TOKEN
  · subst hk₃
    have := toList_length_add_pred hK
    refine ⟨⟨_, hacc', ?_⟩, ?_, ?_, ?_⟩
    · simp only [Multiset.card_add, hcard, ParseLocals.overwritten, if_true, if_neg h₄.symm,
        Multiset.coe_card, leakedClones, overridden, hcount, if_neg h₆]
      omega
    all_goals rw [parsePair_deviceKey _ rfl]; simp [hD, hG, h₄.symm, h₆]
  by_cases hk₄ : k = PROTOCOL_GATEWAY_HOST
  · subst hk₄
    have := toList_length_add_pred hG
    refine ⟨⟨_, hacc', ?_⟩, ?_, ?_, ?_⟩
    · simp only [Multiset.card_add, hcard, ParseLocals.overwritten, if_true, if_neg h₅.symm,
        if_neg h₆.symm, Multiset.coe_card, leakedClones, overridden, hcount]
      omega
    all_goals rw [parsePair_protocolGateway _ rfl]; simp [hD, hK, h₅.symm, h₆.symm]
  · refine ⟨⟨_, hacc', ?_⟩, ?_, ?_, ?_⟩
    · simp [ParseLocals.overwritten, hcard, leakedClones, overridden, hk₂, hk₃, hk₄]
    all_goals rw [parsePair_other _ hk₁ hk₂ hk₃ hk₄]; simp [hD, hK, hG, hk₂, hk₃, hk₄]

theorem cloneAccount_start {n : ℕ} {l : ParseLocals} (hn : n ≤ l.heap.next)
    (hD : l.deviceIdString = none) (hK : l.deviceKeyString = none)
    (hG : l.protocolGateway = none) : CloneAccount ↑l.heap.live n [] l :=
  ⟨⟨0, ⟨by simp [ParseLocals.owned, hD, hK, hG], by simp [ParseLocals.owned, hD, hK, hG], hn⟩,
    rfl⟩, by simp [hD], by simp [hK], by simp [hG]⟩

/-- **How many clones a connection string leaks.** For every list of well-formed pairs,
written with or without the trailing `;`, when every allocation succeeds: after
`IoTHubClient_LL_CreateFromConnectionString` returns, the live handles are those live before
the call and one clone made by the call for each `DeviceId`, `SharedAccessKey` or
`GatewayHostName` pair that a later pair with the same key overrides. Every other handle the
call obtains is deleted, so a string that repeats none of these keys leaves the live handles
as they were. -/
theorem createFromConnectionString_live (pairs : List (List Char × List Char))
    (hwf : ∀ kv ∈ pairs, WellFormedPair kv) (trailing : Bool) (protocol : Ptr) (env : CreateEnv)
    (heap : Heap) :
    ∃ r, createFromConnectionString
        (some (if trailing then render pairs else (render pairs).dropLast)) (some protocol) true
        (fun _ => true) env heap = some r ∧
      ∃ leaked : Multiset StringHandle, ↑r.2.2.live = leaked + ↑heap.live ∧
        Multiset.card leaked = leakedClones pairs ∧ ∀ x ∈ leaked, heap.next ≤ x := by
  simp only [createFromConnectionString, Heap.obtain_true, if_true, Option.isSome_some,
    not_true_eq_false, if_false]
  refine parseLoop_map_wellFormed (cloneAccount_bodyInvariant _ heap.next) pairs hwf trailing
    rfl (cloneAccount_start ?hn rfl rfl rfl) ?_
  case hn => dsimp only; omega
  rintro l' ⟨⟨leaked, hacc, hcard⟩, -, -, -⟩
  refine ⟨leaked, hacc.cleanup (some heap.next) (some (heap.next + 1)) (some (heap.next + 1 + 1))
    (some (heap.next + 1 + 1 + 1)) (some (heap.next + 1 + 1 + 1 + 1))
    (some (heap.next + 1 + 1 + 1 + 1 + 1)) ?_, hcard,
    fun x hx => hacc.ge x (Multiset.mem_add.mpr (.inr hx))⟩
  simp only [Option.toList_some, ← Multiset.cons_coe, ← Multiset.singleton_add]
  abel

/-- `HostName=h.s;DeviceId=a;DeviceId=b;SharedAccessKey=k`: the first `DeviceId` is
overridden, and one clone stays live. -/
theorem createFromConnectionString_live_dup_deviceId :
    (∀ kv ∈ [("HostName".toList, "h.s".toList), ("DeviceId".toList, "a".toList),
        ("DeviceId".toList, "b".toList), ("SharedAccessKey".toList, "k".toList)],
        WellFormedPair kv) ∧
      leakedClones [("HostName".toList, "h.s".toList), ("DeviceId".toList, "a".toList),
        ("DeviceId".toList, "b".toList), ("SharedAccessKey".toList, "k".toList)] = 1 ∧
      ∃ r, createFromConnectionString
          (some (render [("HostName".toList, "h.s".toList), ("DeviceId".toList, "a".toList),
            ("DeviceId".toList, "b".toList), ("SharedAccessKey".toList, "k".toList)]).dropLast)
          (some 1) true (fun _ => true) ⟨true, some 3, some 4, some 5⟩ ⟨0, []⟩ = some r ∧
        ∃ leaked : Multiset StringHandle, ↑r.2.2.live = leaked + ↑([] : List StringHandle) ∧
          Multiset.card leaked = leakedClones [("HostName".toList, "h.s".toList),
            ("DeviceId".toList, "a".toList), ("DeviceId".toList, "b".toList),
            ("SharedAccessKey".toList, "k".toList)] ∧ ∀ x ∈ leaked, 0 ≤ x := by
  have hwf : ∀ kv ∈ [("HostName".toList, "h.s".toList), ("DeviceId".toList, "a".toList),
      ("DeviceId".toList, "b".toList), ("SharedAccessKey".toList, "k".toList)],
      WellFormedPair kv := by decide
  exact ⟨hwf, by decide,
    createFromConnectionString_live _ hwf false 1 ⟨true, some 3, some 4, some 5⟩ ⟨0, []⟩⟩

end IoTHubClientLL
