import IoTHubClientLL.Api

/-!
# `IoTHubClient_LL_CreateFromConnectionString`

The parse of a connection string `Key1=value1;Key2=value2;...` into an
`IOTHUB_CLIENT_CONFIG`, then the call of `IoTHubClient_LL_Create`.

* `stringTokenizerGetNextToken` is the contract of `STRING_TOKENIZER_get_next_token`, which
  this repository does not contain. A tokenizer is the part of its input not consumed yet.
* `Heap` gives every `STRING_HANDLE` and `STRING_TOKENIZER_HANDLE` the number of the
  allocation that made it and keeps the live ones as a multiset; `alloc n` says whether the
  `n`-th allocation succeeds, so a theorem over `alloc` covers every outcome of every
  allocation.
* `ParseLocals` are the locals the parse loop reads and writes; `parsePair` is the body of
  the loop for one key and value, `parseLoop` the loop (with fuel: each turn consumes input),
  and `createFromConnectionString` the whole function. A `const char*` field of the config
  holds the characters it points to when `IoTHubClient_LL_Create` reads them.

The loop ends on every input, since each turn consumes input (`parseLoop_isSome`). On
connection strings of the grammar (`render` of well-formed pairs), with every allocation
succeeding, it runs the body once per pair (`parseLoop_wellFormed`, over any property the
body keeps). With the configuration as that property, this gives the configuration the pairs
describe (`createFromConnectionString_wellFormed`). `Handles.lean` takes the live handles as
the property.
-/

namespace IoTHubClientLL

/-! ## The tokenizer and the allocator -/

/-- Modelled from the spec: `STRING_TOKENIZER_get_next_token`. It skips the delimiters at
the front, fails when nothing is left, and otherwise returns the maximal run of
non-delimiters and consumes the one delimiter after it, if any. The result is the token and
what the tokenizer has left; on failure the output `STRING` is not written. -/
def stringTokenizerGetNextToken (remaining delimiters : List Char) :
    Option (List Char × List Char) :=
  match remaining.dropWhile delimiters.contains with
  | [] => none
  | rest =>
    some (rest.takeWhile (fun c => !delimiters.contains c),
      (rest.dropWhile (fun c => !delimiters.contains c)).drop 1)

/-- A `STRING_HANDLE` or `STRING_TOKENIZER_HANDLE`: the number of the allocation that made
it. -/
abbrev StringHandle : Type := ℕ

/-- The handles `STRING_construct`, `STRING_new`, `STRING_clone` and
`STRING_TOKENIZER_create` have handed out. -/
structure Heap where
  /-- the number of allocations made so far, which is the next handle -/
  next : ℕ
  /-- the handles not deleted yet, as a multiset -/
  live : List StringHandle
  deriving DecidableEq, Repr

/-- One allocation of a handle: it succeeds when `alloc` says so. -/
def Heap.obtain (alloc : ℕ → Bool) (heap : Heap) : Option StringHandle × Heap :=
  if alloc heap.next then (some heap.next, ⟨heap.next + 1, heap.next :: heap.live⟩)
  else (none, { heap with next := heap.next + 1 })

/-- `STRING_delete` or `STRING_TOKENIZER_destroy`. -/
def Heap.delete (handle : StringHandle) (heap : Heap) : Heap :=
  { heap with live := heap.live.erase handle }

/-- The cleanup's `if (x != NULL) STRING_delete(x);`. -/
def Heap.deleteIfSome : Option StringHandle → Heap → Heap
  | none, heap => heap
  | some handle, heap => heap.delete handle

@[simp] theorem Heap.obtain_true (heap : Heap) :
    heap.obtain (fun _ => true) = (some heap.next, ⟨heap.next + 1, heap.next :: heap.live⟩) :=
  if_pos rfl

/-! ## The parse loop -/

def HOSTNAME_TOKEN : List Char := "HostName".toList
def DEVICEID_TOKEN : List Char := "DeviceId".toList
def DEVICEKEY_TOKEN : List Char := "SharedAccessKey".toList
def PROTOCOL_GATEWAY_HOST : List Char := "GatewayHostName".toList

/-- The four keys the loop looks for are distinct, so each pair takes one branch. -/
theorem keys_distinct : HOSTNAME_TOKEN ≠ DEVICEID_TOKEN ∧ HOSTNAME_TOKEN ≠ DEVICEKEY_TOKEN ∧
    HOSTNAME_TOKEN ≠ PROTOCOL_GATEWAY_HOST ∧ DEVICEID_TOKEN ≠ DEVICEKEY_TOKEN ∧
    DEVICEID_TOKEN ≠ PROTOCOL_GATEWAY_HOST ∧ DEVICEKEY_TOKEN ≠ PROTOCOL_GATEWAY_HOST := by
  decide

/-- The locals of `IoTHubClient_LL_CreateFromConnectionString` the parse loop uses. -/
structure ParseLocals where
  config : ClientConfig
  /-- what `tokenizer1` has not consumed yet -/
  tokenizer1 : List Char
  tokenString : List Char
  valueString : List Char
  hostNameString : List Char
  hostSuffixString : List Char
  deviceIdString : Option StringHandle
  deviceKeyString : Option StringHandle
  protocolGateway : Option StringHandle
  heap : Heap
  deriving DecidableEq, Repr

/-- The body of the parse loop, after `tokenString` and `valueString` have been read:
`(true, l)` to go on, `(false, l)` to `break`. A `HostName` value is split on its first `.`
by a second tokenizer; the other keys' values are cloned, and the field points to the
clone. (`tokenString != NULL` always holds here: it was allocated before the loop.) -/
def parsePair (alloc : ℕ → Bool) (l : ParseLocals) : Bool × ParseLocals :=
  if l.tokenString = HOSTNAME_TOKEN then
    match l.heap.obtain alloc with
    | (none, heap) => (false, { l with heap := heap })
    | (some tokenizer2, heap) =>
      match stringTokenizerGetNextToken l.valueString ".".toList with
      | none => (false, { l with heap := heap.delete tokenizer2 })
      | some (name, rest) =>
        let config := { l.config with iotHubName := some name }
        match stringTokenizerGetNextToken rest ";".toList with
        | none => (false, { l with
            hostNameString := name, config := config, heap := heap.delete tokenizer2 })
        | some (suffix, _) => (true, { l with
            hostNameString := name, hostSuffixString := suffix,
            config := { config with iotHubSuffix := some suffix }, heap := heap.delete tokenizer2 })
  else if l.tokenString = DEVICEID_TOKEN then
    let r := l.heap.obtain alloc
    (true, { l with
      deviceIdString := r.1, heap := r.2
      config := if r.1.isSome then { l.config with deviceId := some l.valueString } else l.config })
  else if l.tokenString = DEVICEKEY_TOKEN then
    let r := l.heap.obtain alloc
    (true, { l with
      deviceKeyString := r.1, heap := r.2
      config := if r.1.isSome then { l.config with deviceKey := some l.valueString } else l.config })
  else if l.tokenString = PROTOCOL_GATEWAY_HOST then
    let r := l.heap.obtain alloc
    (true, { l with
      protocolGateway := r.1, heap := r.2
      config := if r.1.isSome then
        { l.config with protocolGatewayHostName := some l.valueString } else l.config })
  else (true, l)

/-- `while (STRING_TOKENIZER_get_next_token(tokenizer1, tokenString, "=") == 0)`: read a
key up to `=`, then a value up to `;`, and run the body. `none` when the fuel runs out. -/
def parseLoop (alloc : ℕ → Bool) : ℕ → ParseLocals → Option ParseLocals
  | 0, _ => none
  | fuel + 1, l =>
    match stringTokenizerGetNextToken l.tokenizer1 "=".toList with
    | none => some l
    | some (token, rest) =>
      let l := { l with tokenizer1 := rest, tokenString := token }
      match stringTokenizerGetNextToken l.tokenizer1 ";".toList with
      | none => some l
      | some (value, rest) =>
        let r := parsePair alloc { l with tokenizer1 := rest, valueString := value }
        if r.1 then parseLoop alloc fuel r.2 else some r.2

/-! ## The function -/

/-- `IoTHubClient_LL_CreateFromConnectionString`. `malloc` is whether the configuration's
allocation succeeds, `alloc` the outcome of each handle allocation, `env` what
`IoTHubClient_LL_Create` meets. The result is the configuration `IoTHubClient_LL_Create` was
called with, if it was, the handle returned, and the heap after the cleanup. The six
allocations before the loop are each made only when the ones before succeeded. -/
def createFromConnectionString (connectionString : Option (List Char)) (protocol : Option Ptr)
    (malloc : Bool) (alloc : ℕ → Bool) (env : CreateEnv) (heap : Heap) :
    Option (Option ClientConfig × Option HandleData × Heap) :=
  match connectionString, protocol with
  | some cs, some p =>
    if ¬malloc then some (none, none, heap) else
    let (connString, heap) := heap.obtain alloc
    let (tokenizer1, heap) := if connString.isSome then heap.obtain alloc else (none, heap)
    let (tokenString, heap) := if tokenizer1.isSome then heap.obtain alloc else (none, heap)
    let (valueString, heap) := if tokenString.isSome then heap.obtain alloc else (none, heap)
    let (hostNameString, heap) := if valueString.isSome then heap.obtain alloc else (none, heap)
    let (hostSuffixString, heap) :=
      if hostNameString.isSome then heap.obtain alloc else (none, heap)
    let l₀ : ParseLocals :=
      ⟨⟨some p, none, none, none, none, none⟩, cs, [], [], [], [], none, none, none, heap⟩
    let parsed := if hostSuffixString.isSome then parseLoop alloc (cs.length + 1) l₀ else some l₀
    parsed.map fun l =>
      let createdWith :=
        if hostSuffixString.isSome ∧ l.config.iotHubName.isSome ∧ l.config.iotHubSuffix.isSome ∧
            l.config.deviceId.isSome ∧ l.config.deviceKey.isSome then some l.config else none
      (createdWith, createdWith.bind fun config => (create (some config) env).1,
        l.heap |>.deleteIfSome l.deviceKeyString |>.deleteIfSome l.deviceIdString
          |>.deleteIfSome hostSuffixString |>.deleteIfSome hostNameString
          |>.deleteIfSome valueString |>.deleteIfSome tokenString |>.deleteIfSome connString
          |>.deleteIfSome l.protocolGateway |>.deleteIfSome tokenizer1)
  | _, _ => some (none, none, heap)

/-- **A repeated `DeviceId` leaks a clone.** Each `DeviceId` pair overwrites
`deviceIdString` with a new clone, and the cleanup deletes only the last: after parsing
`HostName=h.s;DeviceId=a;DeviceId=b;SharedAccessKey=k` with every allocation succeeding,
the clone made for `a` (handle `7`) is still live. -/
theorem createFromConnectionString_leaks_deviceId_clone :
    createFromConnectionString (some "HostName=h.s;DeviceId=a;DeviceId=b;SharedAccessKey=k".toList)
        (some 1) true (fun _ => true) ⟨true, some 3, some 4, some 5⟩ ⟨0, []⟩ =
      some (some ⟨some 1, some "b".toList, some "k".toList, some "h".toList, some "s".toList, none⟩,
        some (HandleData.initial 4 false 5 3), ⟨10, [7]⟩) := by
  decide

/-! ## Connection strings of the grammar -/

/-- The name of a `HostName` value: what stands before its first `.`. -/
def hostName (value : List Char) : List Char := value.takeWhile (· != '.')

/-- The suffix of a `HostName` value: what stands after its first `.`. -/
def hostSuffix (value : List Char) : List Char := (value.dropWhile (· != '.')).drop 1

/-- The conditions of the grammar on a pair `key=value`: the key is not empty and holds
neither `=` nor `;`, the value is not empty and holds no `;`, and a `HostName` value is
`name.suffix` with `name` and `suffix` not empty (`name` is free of `.` by its definition). -/
def WellFormedPair (kv : List Char × List Char) : Prop :=
  kv.1 ≠ [] ∧ '=' ∉ kv.1 ∧ ';' ∉ kv.1 ∧ kv.2 ≠ [] ∧ ';' ∉ kv.2 ∧
    (kv.1 = HOSTNAME_TOKEN → hostName kv.2 ≠ [] ∧ hostSuffix kv.2 ≠ [])

instance : DecidablePred WellFormedPair := fun _ => by
  unfold WellFormedPair; infer_instance

/-- `key=value;` -/
def renderPair (kv : List Char × List Char) : List Char := (kv.1 ++ '=' :: kv.2) ++ [';']

/-- `k1=v1;k2=v2;...;kn=vn;`, with the trailing `;`. -/
def render (pairs : List (List Char × List Char)) : List Char := pairs.flatMap renderPair

/-- The value of the last pair with this key, if any. -/
def lastValue (key : List Char) (pairs : List (List Char × List Char)) : Option (List Char) :=
  (pairs.reverse.find? fun kv => kv.1 = key).map (·.2)

/-- The configuration after the pairs `pairs`, in the words of the specification: each field
is set from the last pair with its key, and otherwise stays as it was. -/
def configAfter (config : ClientConfig) (pairs : List (List Char × List Char)) : ClientConfig where
  protocol := config.protocol
  deviceId := (lastValue DEVICEID_TOKEN pairs).or config.deviceId
  deviceKey := (lastValue DEVICEKEY_TOKEN pairs).or config.deviceKey
  iotHubName := ((lastValue HOSTNAME_TOKEN pairs).map hostName).or config.iotHubName
  iotHubSuffix := ((lastValue HOSTNAME_TOKEN pairs).map hostSuffix).or config.iotHubSuffix
  protocolGatewayHostName :=
    (lastValue PROTOCOL_GATEWAY_HOST pairs).or config.protocolGatewayHostName

theorem lastValue_append (key : List Char) (ps qs : List (List Char × List Char)) :
    lastValue key (ps ++ qs) = (lastValue key qs).or (lastValue key ps) := by
  simp only [lastValue, List.reverse_append, List.find?_append, Option.map_or']

theorem configAfter_append (config : ClientConfig) (ps qs : List (List Char × List Char)) :
    configAfter config (ps ++ qs) = configAfter (configAfter config ps) qs := by
  simp only [configAfter, lastValue_append, Option.or_assoc, Option.map_or']

/-! ### The tokenizer on well-formed input -/

/-- A non-empty token free of delimiters, followed by nothing or by a delimiter: the
tokenizer returns the token and consumes the delimiter. -/
theorem stringTokenizerGetNextToken_token {token rest delimiters : List Char}
    (hne : token ≠ []) (htok : ∀ c ∈ token, c ∉ delimiters)
    (hrest : ∀ d ∈ rest.head?, d ∈ delimiters) :
    stringTokenizerGetNextToken (token ++ rest) delimiters = some (token, rest.drop 1) := by
  obtain ⟨c, cs, rfl⟩ := List.exists_cons_of_ne_nil hne
  have htake : ∀ a ∈ c :: cs, (!delimiters.contains a) = true := fun a ha => by
    simpa using htok a ha
  have hstop : (rest.takeWhile fun a => !delimiters.contains a) = [] ∧
      (rest.dropWhile fun a => !delimiters.contains a) = rest := by
    cases rest with
    | nil => simp
    | cons d r => simp [hrest d rfl]
  unfold stringTokenizerGetNextToken
  rw [List.cons_append, List.dropWhile_cons_of_neg (by simpa using htok c (.head _))]
  simp only [← List.cons_append, List.takeWhile_append_of_pos htake,
    List.dropWhile_append_of_pos htake, hstop, List.append_nil]

theorem stringTokenizerGetNextToken_hostName {value : List Char} (hname : hostName value ≠ []) :
    stringTokenizerGetNextToken value ".".toList = some (hostName value, hostSuffix value) := by
  have hsplit : value = hostName value ++ value.dropWhile (· != '.') :=
    (List.takeWhile_append_dropWhile _ _).symm
  conv_lhs => rw [hsplit]
  rw [stringTokenizerGetNextToken_token hname]
  · rfl
  · intro c hc
    have := List.mem_takeWhile_imp hc
    simpa using this
  · intro d hd
    have := List.head?_dropWhile_not (· != '.') value
    rw [hd] at this
    simpa using this

/-! ### The body on well-formed input

With every allocation succeeding, the body does one thing per key: a `HostName` pair makes a
second tokenizer, stores the name and suffix, and destroys the tokenizer; a `DeviceId`,
`SharedAccessKey` or `GatewayHostName` pair clones the value and points its variable at the
clone; any other pair is skipped. -/

section Body

variable {l : ParseLocals}

theorem parsePair_hostName (hk : l.tokenString = HOSTNAME_TOKEN)
    (hwf : WellFormedPair (l.tokenString, l.valueString)) :
    parsePair (fun _ => true) l = (true, { l with
      hostNameString := hostName l.valueString
      hostSuffixString := hostSuffix l.valueString
      config := { l.config with
        iotHubName := some (hostName l.valueString)
        iotHubSuffix := some (hostSuffix l.valueString) }
      heap := ⟨l.heap.next + 1, l.heap.live⟩ }) := by
  obtain ⟨-, -, -, -, hsemi, hhost⟩ := hwf
  obtain ⟨hname, hsuffix⟩ : hostName l.valueString ≠ [] ∧ hostSuffix l.valueString ≠ [] :=
    hhost hk
  have hsuf : stringTokenizerGetNextToken (hostSuffix l.valueString) ";".toList =
      some (hostSuffix l.valueString, []) := by
    have := @stringTokenizerGetNextToken_token _ [] ";".toList hsuffix
      (fun c hc hc' => hsemi (by
        simp at hc'
        subst hc'
        exact (List.drop_sublist _ _ |>.trans (List.dropWhile_sublist _)).subset hc))
      (by simp)
    simpa using this
  simp only [parsePair, hk, if_true, Heap.obtain, stringTokenizerGetNextToken_hostName hname, hsuf]
  simp [Heap.delete]

/-- A `DeviceId` pair: `deviceIdString` is overwritten with a clone of the value, or with
`NULL` when the clone fails, and `deviceId` points to the clone. -/
theorem parsePair_deviceId (alloc : ℕ → Bool) (hk : l.tokenString = DEVICEID_TOKEN) :
    parsePair alloc l = (true, { l with
      deviceIdString := (l.heap.obtain alloc).1, heap := (l.heap.obtain alloc).2
      config := if (l.heap.obtain alloc).1.isSome then
        { l.config with deviceId := some l.valueString } else l.config }) := by
  simp [parsePair, hk, keys_distinct.1.symm]

theorem parsePair_deviceKey (alloc : ℕ → Bool) (hk : l.tokenString = DEVICEKEY_TOKEN) :
    parsePair alloc l = (true, { l with
      deviceKeyString := (l.heap.obtain alloc).1, heap := (l.heap.obtain alloc).2
      config := if (l.heap.obtain alloc).1.isSome then
        { l.config with deviceKey := some l.valueString } else l.config }) := by
  obtain ⟨-, h₂, -, h₄, -, -⟩ := keys_distinct
  simp [parsePair, hk, h₂.symm, h₄.symm]

theorem parsePair_protocolGateway (alloc : ℕ → Bool) (hk : l.tokenString = PROTOCOL_GATEWAY_HOST) :
    parsePair alloc l = (true, { l with
      protocolGateway := (l.heap.obtain alloc).1, heap := (l.heap.obtain alloc).2
      config := if (l.heap.obtain alloc).1.isSome then
        { l.config with protocolGatewayHostName := some l.valueString } else l.config }) := by
  obtain ⟨-, -, h₃, -, h₅, h₆⟩ := keys_distinct
  simp [parsePair, hk, h₃.symm, h₅.symm, h₆.symm]

theorem parsePair_other (alloc : ℕ → Bool) (h₁ : l.tokenString ≠ HOSTNAME_TOKEN)
    (h₂ : l.tokenString ≠ DEVICEID_TOKEN) (h₃ : l.tokenString ≠ DEVICEKEY_TOKEN)
    (h₄ : l.tokenString ≠ PROTOCOL_GATEWAY_HOST) : parsePair alloc l = (true, l) := by
  simp [parsePair, h₁, h₂, h₃, h₄]

end Body

theorem parsePair_wellFormed (l : ParseLocals)
    (hwf : WellFormedPair (l.tokenString, l.valueString)) :
    (parsePair (fun _ => true) l).1 = true ∧
      (parsePair (fun _ => true) l).2.tokenizer1 = l.tokenizer1 ∧
      (parsePair (fun _ => true) l).2.config =
        configAfter l.config [(l.tokenString, l.valueString)] := by
  obtain ⟨h₁, h₂, h₃, h₄, h₅, h₆⟩ := keys_distinct
  by_cases hk₁ : l.tokenString = HOSTNAME_TOKEN
  · simp [parsePair_hostName hk₁ hwf, configAfter, lastValue, hk₁, h₁, h₂, h₃]
  by_cases hk₂ : l.tokenString = DEVICEID_TOKEN
  · simp [parsePair_deviceId _ hk₂, configAfter, lastValue, hk₂, h₁.symm, h₄, h₅]
  by_cases hk₃ : l.tokenString = DEVICEKEY_TOKEN
  · simp [parsePair_deviceKey _ hk₃, configAfter, lastValue, hk₃, h₂.symm, h₄.symm, h₆]
  by_cases hk₄ : l.tokenString = PROTOCOL_GATEWAY_HOST
  · simp [parsePair_protocolGateway _ hk₄, configAfter, lastValue, hk₄, h₃.symm, h₅.symm, h₆.symm]
  · simp [parsePair_other _ hk₁ hk₂ hk₃ hk₄, configAfter, lastValue, hk₁, hk₂, hk₃, hk₄]

/-! ### The loop always ends -/

/-- A token read consumes input: what the tokenizer has left is shorter. -/
theorem stringTokenizerGetNextToken_shorter {remaining delimiters token rest : List Char}
    (h : stringTokenizerGetNextToken remaining delimiters = some (token, rest)) :
    rest.length < remaining.length := by
  have hlen := (List.dropWhile_sublist delimiters.contains (l := remaining)).length_le
  have hhead := List.head?_dropWhile_not delimiters.contains remaining
  unfold stringTokenizerGetNextToken at h
  cases hd : remaining.dropWhile delimiters.contains with
  | nil => simp [hd] at h
  | cons c cs =>
    simp only [hd, Option.some.injEq, Prod.mk.injEq] at h hhead hlen
    rw [← h.2, List.dropWhile_cons_of_pos (by simpa using hhead)]
    have := (List.dropWhile_sublist (fun c => !delimiters.contains c) (l := cs)).length_le
    simp only [List.length_drop, List.length_cons] at this hlen ⊢
    omega

/-- The body leaves what the tokenizer has left alone. -/
theorem parsePair_tokenizer1 (alloc : ℕ → Bool) (l : ParseLocals) :
    (parsePair alloc l).2.tokenizer1 = l.tokenizer1 := by
  unfold parsePair
  split_ifs <;> (repeat' split) <;> rfl

/-- **The parse loop ends** on every input and every outcome of every allocation: each turn
consumes input, so it never needs more turns than the input has characters. -/
theorem parseLoop_isSome (alloc : ℕ → Bool) :
    ∀ (fuel : ℕ) (l : ParseLocals), l.tokenizer1.length < fuel → (parseLoop alloc fuel l).isSome
  | 0, _, h => absurd h (Nat.not_lt_zero _)
  | fuel + 1, l, h => by
    unfold parseLoop
    split
    · rfl
    · rename_i token rest₁ h₁
      dsimp only
      split
      · rfl
      · rename_i value rest₂ h₂
        have := stringTokenizerGetNextToken_shorter h₁
        have := stringTokenizerGetNextToken_shorter h₂
        split
        · exact parseLoop_isSome alloc fuel _ (by rw [parsePair_tokenizer1]; dsimp only; omega)
        · rfl

/-! ### The loop on well-formed input -/

theorem configAfter_nil (config : ClientConfig) : configAfter config [] = config := rfl

theorem render_cons (kv : List Char × List Char) (pairs : List (List Char × List Char)) :
    render (kv :: pairs) = kv.1 ++ '=' :: (kv.2 ++ ';' :: render pairs) := by
  simp [render, renderPair]

theorem render_length (pairs : List (List Char × List Char)) :
    2 * pairs.length ≤ (render pairs).length := by
  induction pairs with
  | nil => simp [render]
  | cons kv pairs ih => rw [render_cons]; simp; omega

theorem parseLoop_done (alloc : ℕ → Bool) (fuel : ℕ) {l : ParseLocals} (h : l.tokenizer1 = []) :
    parseLoop alloc (fuel + 1) l = some l := by
  simp [parseLoop, h, stringTokenizerGetNextToken]

/-- A property of the locals after the pairs `done` that the body keeps on every well-formed
pair, whatever the tokenizer has left. -/
def BodyInvariant (P : List (List Char × List Char) → ParseLocals → Prop) : Prop :=
  ∀ done l t k v, WellFormedPair (k, v) → P done l →
    P (done ++ [(k, v)])
      (parsePair (fun _ => true) { l with tokenizer1 := t, tokenString := k, valueString := v }).2

section Loop

variable {P : List (List Char × List Char) → ParseLocals → Prop}

/-- **One turn of the loop** on a well-formed pair, followed by `;` or by nothing: the body
runs on the pair. -/
theorem parseLoop_pair (hP : BodyInvariant P) (fuel : ℕ) (rest : List Char)
    {done : List (List Char × List Char)} {l : ParseLocals} {k v : List Char}
    (hwf : WellFormedPair (k, v)) (hsep : ∀ d ∈ rest.head?, d = ';')
    (h : l.tokenizer1 = k ++ '=' :: (v ++ rest)) (hl : P done l) :
    ∃ l', l'.tokenizer1 = rest.drop 1 ∧ P (done ++ [(k, v)]) l' ∧
      parseLoop (fun _ => true) (fuel + 1) l = parseLoop (fun _ => true) fuel l' := by
  obtain ⟨hk, hke, -, hv, hvs, -⟩ := id hwf
  have hkey : stringTokenizerGetNextToken l.tokenizer1 "=".toList = some (k, v ++ rest) := by
    rw [h]
    exact stringTokenizerGetNextToken_token hk
      (fun c hc hc' => hke (by simp at hc'; exact hc' ▸ hc)) (by simp)
  have hval : stringTokenizerGetNextToken (v ++ rest) ";".toList = some (v, rest.drop 1) :=
    stringTokenizerGetNextToken_token hv
      (fun c hc hc' => hvs (by simp at hc'; exact hc' ▸ hc)) (fun d hd => by simp [hsep d hd])
  obtain ⟨h₁, h₂, -⟩ := parsePair_wellFormed
    { l with tokenizer1 := rest.drop 1, tokenString := k, valueString := v } hwf
  exact ⟨_, h₂, hP done l _ k v hwf hl, by simp only [parseLoop, hkey, hval, h₁, if_true]⟩

/-- **The loop reads rendered pairs back**, one turn each. -/
theorem parseLoop_render (hP : BodyInvariant P) (fuel : ℕ) (rest : List Char) :
    ∀ (pairs : List (List Char × List Char)), (∀ kv ∈ pairs, WellFormedPair kv) →
      ∀ (done : List (List Char × List Char)) (l : ParseLocals), P done l →
      l.tokenizer1 = render pairs ++ rest →
      ∃ l', l'.tokenizer1 = rest ∧ P (done ++ pairs) l' ∧
        parseLoop (fun _ => true) (fuel + pairs.length) l = parseLoop (fun _ => true) fuel l'
  | [], _, done, l, hl, h => ⟨l, by simpa [render] using h, by simpa using hl, rfl⟩
  | kv :: pairs, hwf, done, l, hl, h => by
    obtain ⟨l₁, h₁, h₂, h₃⟩ := parseLoop_pair hP (fuel + pairs.length)
      (';' :: (render pairs ++ rest)) (hwf kv (List.mem_cons_self _ _)) (by simp)
      (by rw [h, render_cons]; simp) hl
    obtain ⟨l₂, h₄, h₅, h₆⟩ := parseLoop_render hP fuel rest pairs
      (fun kv' h' => hwf kv' (List.mem_cons_of_mem _ h')) _ l₁ h₂ (by simpa using h₁)
    refine ⟨l₂, h₄, by simpa using h₅, ?_⟩
    rw [List.length_cons, ← Nat.add_assoc, h₃, h₆]

end Loop

/-- More fuel does not change a result the loop reached. -/
theorem parseLoop_succ (alloc : ℕ → Bool) :
    ∀ {fuel : ℕ} {l l' : ParseLocals},
      parseLoop alloc fuel l = some l' → parseLoop alloc (fuel + 1) l = some l'
  | 0, _, _, h => nomatch h
  | fuel + 1, l, l', h => by
    revert h
    unfold parseLoop
    dsimp only
    split
    · exact id
    · split
      · exact id
      · split
        · exact parseLoop_succ alloc
        · exact id

theorem parseLoop_of_le (alloc : ℕ → Bool) {fuel fuel' : ℕ} {l l' : ParseLocals}
    (hle : fuel ≤ fuel') (h : parseLoop alloc fuel l = some l') :
    parseLoop alloc fuel' l = some l' := by
  induction fuel', hle using Nat.le_induction with
  | base => exact h
  | succ _ _ ih => exact parseLoop_succ alloc ih

/-- **The loop on a connection string of the grammar**, with or without the trailing `;`:
it ends within the fuel `createFromConnectionString` gives it, after one turn of the body
per pair. -/
theorem parseLoop_wellFormed {P : List (List Char × List Char) → ParseLocals → Prop}
    (hP : BodyInvariant P) (pairs : List (List Char × List Char))
    (hwf : ∀ kv ∈ pairs, WellFormedPair kv) (trailing : Bool) {l : ParseLocals}
    (hl : l.tokenizer1 = if trailing then render pairs else (render pairs).dropLast)
    (h₀ : P [] l) :
    ∃ l', parseLoop (fun _ => true) (l.tokenizer1.length + 1) l = some l' ∧ P pairs l' := by
  have hlen := render_length pairs
  cases trailing with
  | true =>
    obtain ⟨l₁, h₁, h₂, h₃⟩ := parseLoop_render hP 1 [] pairs hwf [] l h₀ (by simpa using hl)
    refine ⟨l₁, parseLoop_of_le _ ?_ (h₃.trans (parseLoop_done _ 0 h₁)), h₂⟩
    simp only [hl, if_true]
    omega
  | false =>
    rcases List.eq_nil_or_concat pairs with rfl | ⟨init, kv, rfl⟩
    · exact ⟨l, parseLoop_done _ _ (by simpa [render] using hl), h₀⟩
    · rw [List.concat_eq_append] at hwf hl hlen ⊢
      have htok : l.tokenizer1 = render init ++ (kv.1 ++ '=' :: kv.2) := by
        simp only [hl, render, renderPair, List.flatMap_append, List.flatMap_singleton]
        simp only [if_neg Bool.false_ne_true, ← List.append_assoc, List.dropLast_concat]
      obtain ⟨l₁, h₁, h₂, h₃⟩ := parseLoop_render hP 2 _ init
        (fun kv' h' => hwf kv' (List.mem_append_left _ h')) [] l h₀ htok
      obtain ⟨l₂, h₄, h₅, h₆⟩ := parseLoop_pair hP 1 []
        (hwf kv (List.mem_append_right _ (List.mem_singleton_self _))) (by simp)
        (by rw [h₁, List.append_nil]) h₂
      refine ⟨l₂, parseLoop_of_le _ ?_ (h₃.trans (h₆.trans (parseLoop_done _ 0 h₄))), h₅⟩
      have := render_length init
      rw [htok]
      simp
      omega

/-- The loop on a connection string of the grammar, seen through what the caller computes
from its final locals. -/
theorem parseLoop_map_wellFormed {P : List (List Char × List Char) → ParseLocals → Prop}
    (hP : BodyInvariant P) (pairs : List (List Char × List Char))
    (hwf : ∀ kv ∈ pairs, WellFormedPair kv) (trailing : Bool) {l : ParseLocals} {β : Type}
    {F : ParseLocals → β} {Q : β → Prop}
    (hl : l.tokenizer1 = if trailing then render pairs else (render pairs).dropLast)
    (h₀ : P [] l) (hQ : ∀ l', P pairs l' → Q (F l')) :
    ∃ r, (parseLoop (fun _ => true)
      ((if trailing then render pairs else (render pairs).dropLast).length + 1) l).map F =
        some r ∧ Q r := by
  obtain ⟨l', h, hl'⟩ := parseLoop_wellFormed hP pairs hwf trailing hl h₀
  exact ⟨F l', by rw [← hl, h, Option.map_some'], hQ l' hl'⟩

theorem parseLoop_map_eq {P : List (List Char × List Char) → ParseLocals → Prop}
    (hP : BodyInvariant P) (pairs : List (List Char × List Char))
    (hwf : ∀ kv ∈ pairs, WellFormedPair kv) (trailing : Bool) {l : ParseLocals} {β : Type}
    {F : ParseLocals → β} {b : β}
    (hl : l.tokenizer1 = if trailing then render pairs else (render pairs).dropLast)
    (h₀ : P [] l) (hF : ∀ l', P pairs l' → F l' = b) :
    (parseLoop (fun _ => true)
      ((if trailing then render pairs else (render pairs).dropLast).length + 1) l).map F =
        some b := by
  obtain ⟨r, hr, rfl⟩ := parseLoop_map_wellFormed hP pairs hwf trailing (Q := (· = b)) hl h₀ hF
  exact hr

/-- The body sets the configuration as the specification says. -/
theorem configAfter_bodyInvariant (config : ClientConfig) :
    BodyInvariant fun done l => l.config = configAfter config done := by
  intro done l t k v hwf hl
  rw [(parsePair_wellFormed { l with tokenizer1 := t, tokenString := k, valueString := v }
    hwf).2.2, configAfter_append, ← hl]

/-- **Connection strings of the grammar.** For every list of well-formed pairs, written with
or without the trailing `;`, when every allocation succeeds:
`IoTHubClient_LL_CreateFromConnectionString` calls `IoTHubClient_LL_Create` exactly when
`HostName`, `DeviceId` and `SharedAccessKey` each occur, and returns its result, and `NULL`
otherwise. The configuration it passes has the name and suffix of the last `HostName` value,
and the values of the last `DeviceId`, `SharedAccessKey` and `GatewayHostName`, or `NULL`
for a key that does not occur. -/
theorem createFromConnectionString_wellFormed (pairs : List (List Char × List Char))
    (hwf : ∀ kv ∈ pairs, WellFormedPair kv) (trailing : Bool) (protocol : Ptr) (env : CreateEnv)
    (heap : Heap) :
    let config : ClientConfig := ⟨some protocol, lastValue DEVICEID_TOKEN pairs,
      lastValue DEVICEKEY_TOKEN pairs, (lastValue HOSTNAME_TOKEN pairs).map hostName,
      (lastValue HOSTNAME_TOKEN pairs).map hostSuffix, lastValue PROTOCOL_GATEWAY_HOST pairs⟩
    (createFromConnectionString
        (some (if trailing then render pairs else (render pairs).dropLast)) (some protocol) true
        (fun _ => true) env heap).map (fun r => (r.1, r.2.1)) =
      some (if (lastValue HOSTNAME_TOKEN pairs).isSome ∧ (lastValue DEVICEID_TOKEN pairs).isSome ∧
          (lastValue DEVICEKEY_TOKEN pairs).isSome
        then (some config, (create (some config) env).1) else (none, none)) := by
  intro config
  simp only [createFromConnectionString, Heap.obtain, if_true, Option.isSome_some,
    not_true_eq_false, if_false, Option.map_map]
  refine parseLoop_map_eq (configAfter_bodyInvariant ⟨some protocol, none, none, none, none, none⟩)
    pairs hwf trailing rfl rfl ?_
  intro l' hcfg
  simp only [Function.comp_apply, hcfg, configAfter, config, Option.or_none, Option.isSome_map',
    true_and, and_self_left]
  split_ifs <;> rfl

/-- `HostName=hub.net;DeviceId=dev;SharedAccessKey=key`, without the trailing `;`. -/
theorem createFromConnectionString_wellFormed_hub :
    (∀ kv ∈ [("HostName".toList, "hub.net".toList), ("DeviceId".toList, "dev".toList),
        ("SharedAccessKey".toList, "key".toList)], WellFormedPair kv) ∧
      (createFromConnectionString (some (render [("HostName".toList, "hub.net".toList),
          ("DeviceId".toList, "dev".toList), ("SharedAccessKey".toList, "key".toList)]).dropLast)
          (some 1) true (fun _ => true) ⟨true, some 3, some 4, some 5⟩ ⟨0, []⟩).map
        (fun r => (r.1, r.2.1)) =
      some (some ⟨some 1, some "dev".toList, some "key".toList, some "hub".toList,
          some "net".toList, none⟩, some (HandleData.initial 4 false 5 3)) := by
  have hwf : ∀ kv ∈ [("HostName".toList, "hub.net".toList), ("DeviceId".toList, "dev".toList),
      ("SharedAccessKey".toList, "key".toList)], WellFormedPair kv := by decide
  exact ⟨hwf, (createFromConnectionString_wellFormed _ hwf false 1 ⟨true, some 3, some 4, some 5⟩
    ⟨0, []⟩).trans (by decide)⟩

end IoTHubClientLL
