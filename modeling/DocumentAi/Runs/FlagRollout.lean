import DocumentAi.Utils.Ssm

/-!
# When a change of an SSM parameter is seen

Every process keeps the parameters it has read for five minutes. A request can have read the old
value and put it into the cache long after the change; apart from such requests, all processes use
the new value once what they had has expired.

| here | meaning |
| --- | --- |
| `request_obeys`    | a request puts only what it has read and answers only what it holds |
| `answer_sourced`   | where each answer comes from |
| `parameter_rolled_out` | from when on requests are answered with a changed parameter |
-/

namespace DocumentAi.Ssm

open TtlCache (Stage DidRead HasPut Saw Missed Replied NoneInFlight NoWrite)
open Effect.Protocol (Obeys obeys_bind obeys_tryCatch obeys_perform obeys_ret obeys_raise)

variable {config : SsmConfig}

/-- The stage of a request that has got the value of a parameter. -/
def Holds (pid : Nat) (name : String) (default : Option String)
    (s : Stage String String String) (value : String) : Prop :=
  (s = .valid pid (cacheKey name) value ∨ s = .stored pid name value) ∨
    s = .missed pid name ∧ default = some value

abbrev ssmProtocol (config : SsmConfig) : Effect.Protocol sig :=
  TtlCache.protocol Exc (policy config)

theorem getParameterValue_obeys (pid : Nat) (name : String) (default : Option String)
    (s : Stage String String String) : (ssmProtocol config).Obeys (Holds pid name default)
      (fun _ _ => True) s (getParameterValue pid name default) := by
  refine obeys_bind (TtlCache.get_obeys (cacheKey name)) fun s cached hs => ?_
  cases cached with
  | some value => exact obeys_ret (.inl (.inl (hs value rfl)))
  | none =>
    refine obeys_tryCatch (F := fun (s' : Stage String String String) _ => s' = .missed pid name) ?_ ?_
    · refine obeys_bind TtlCache.read_obeys fun s value hs => ?_
      subst hs
      refine obeys_bind (Effect.Protocol.Obeys.mono (fun _ _ h => h) (fun _ _ h => h.elim)
        TtlCache.add_obeys) fun s _ hs => ?_
      exact obeys_ret (.inl (.inr hs))
    · rintro s e rfl
      cases default with
      | some d => exact obeys_ret (.inr ⟨rfl, rfl⟩)
      | none => exact obeys_raise trivial

/-- The answer about a parameter, from the text that the request holds. -/
theorem tell_obeys {pid : Nat} {param : Option String} (default : String)
    {s : Stage String String String} {a : Answer}
    (h : ∀ name, param = some name → ∃ value, Holds pid name (some default) s value ∧
      (a = .text value ∨ a = .flag (flagOf value)) ∧ (value = default → IsDefault config name a)) :
    (ssmProtocol config).Obeys (fun _ _ => True) (fun _ _ => True) s (tell pid param a) := by
  cases param with
  | none => exact obeys_ret trivial
  | some name =>
    obtain ⟨value, hs, hanswer, hdefault⟩ := h name rfl
    refine obeys_perform ?_ (fun _ _ => trivial) fun _ _ => trivial
    rcases hs with hs | ⟨hs, hvalue⟩
    · exact .inl ⟨value, hs, hanswer⟩
    · exact .inr ⟨hs, hdefault (Option.some.inj hvalue).symm⟩

theorem flagValue_eq (config : SsmConfig) (pid : Nat) (flag : Flag) :
    flagValue config pid flag = getFlag config pid flag flag.default := by
  cases flag <;> rfl

theorem flagValue_obeys (pid : Nat) (flag : Flag) (s : Stage String String String) :
    (ssmProtocol config).Obeys (fun s' b => ∀ name, flag.paramOf config = some name →
      ∃ value, Holds pid name (some (defaultText flag.default)) s' value ∧ b = flagOf value)
      (fun _ _ => True) s (flagValue config pid flag) := by
  rw [flagValue_eq, getFlag]
  unfold Flag.paramOf
  cases truthyParam config.ssmPrefix with
  | none => exact obeys_ret fun name hname => (by cases hname)
  | some ssmPrefix =>
    refine obeys_bind (getParameterValue_obeys pid _ _ _) fun s value hs => obeys_ret ?_
    rintro name hname
    obtain rfl := Option.some.inj hname
    exact ⟨value, hs, rfl⟩

theorem modelIdValue_eq (config : SsmConfig) (pid : Nat) (use : ModelUse) :
    modelIdValue config pid use =
      match use.paramOf config with
      | none      => .ret use.default
      | some name => getParameterValue pid name (some use.default) := by
  cases use <;> rfl

theorem modelIdValue_obeys (pid : Nat) (use : ModelUse) (s : Stage String String String) :
    (ssmProtocol config).Obeys (fun s' value => ∀ name, use.paramOf config = some name →
      Holds pid name (some use.default) s' value) (fun _ _ => True) s
      (modelIdValue config pid use) := by
  rw [modelIdValue_eq]
  cases hparam : use.paramOf config with
  | none => exact obeys_ret fun name hname => (by cases hname)
  | some param =>
    refine (getParameterValue_obeys pid param _ s).mono (fun s' value hs name hname => ?_)
      fun _ _ h => h
    obtain rfl := Option.some.inj hname
    exact hs

theorem request_obeys (r : Request) : (ssmProtocol config).Obeys (fun _ _ => True) (fun _ _ => True)
    .idle (r.body config) := by
  cases r with
  | putParameter name value =>
    exact obeys_perform trivial (fun _ _ => trivial) fun _ _ => trivial
  | flag pid flag =>
    refine obeys_bind (flagValue_obeys pid flag _) fun s b hs =>
      tell_obeys (defaultText flag.default) fun name hname => ?_
    obtain ⟨value, hholds, rfl⟩ := hs name hname
    refine ⟨value, hholds, .inr rfl, fun hvalue => .inl ⟨flag, hname, ?_⟩⟩
    rw [hvalue, flagOf_defaultText]
  | modelId pid use =>
    refine obeys_bind (modelIdValue_obeys pid use _) fun s value hs =>
      tell_obeys use.default fun name hname => ?_
    exact ⟨value, hs name hname, .inl rfl, fun hvalue => .inr ⟨use, hname, by rw [hvalue]⟩⟩

/-! ## Runs -/

/-- No process has read a parameter. -/
def fresh (source : String → Except Exc String) : TtlCache.World String String String Exc where
  dict   := fun _ _ => none
  source := source
  clock  := 0

/-! A process caches a flag, the parameter is changed, and five minutes pass while a request has the
old entry in its hands. -/

def sampleConfig : SsmConfig := { ssmPrefix := some "/app" }

def cropParam : String := Flag.documentCrop.param "/app"

def movesBefore : List (Effect.Move (ssmSystem sampleConfig)) :=
  [.start (.flag 1 .documentCrop), .act 0 {}, .act 0 {}, .act 0 {}, .act 0 {}, .act 0 {},
    .start (.putParameter cropParam "true"), .act 1 {}]

def movesWhile : List (Effect.Move (ssmSystem sampleConfig)) :=
  [.start (.flag 1 .documentCrop), .act 2 {}, .act 2 {}, .act 2 { tick := SSM_CACHE_TTL + 1 }]

def movesAfter : List (Effect.Move (ssmSystem sampleConfig)) :=
  .start (.flag 1 .documentCrop) :: List.replicate 8 (.act 3 {})

section
variable {source : String → Except Exc String} {ms xs ys : List (Effect.Move (ssmSystem config))}
  {c c₀ c₁ c₂ : Effect.Config (ssmSystem config)} {pid : Nat} {name : String} {a : Answer}

/-- **Each answer is the value of a parameter that the request read itself, or that a request of
the same process had read and put into the cache at most five minutes before, or the default of what
was asked, when the request's own read failed.** -/
theorem answer_sourced (h : Effect.play (.init (fresh source)) ms = some c)
    {t : Effect.Thread (ssmSystem config)} (ht : t ∈ c.threads) (hreply : Replied t pid name a) :
    (∃ value, (a = .text value ∨ a = .flag (flagOf value)) ∧ (DidRead t pid name value ∨
      ∃ u ∈ c.threads, ∃ put now, HasPut (policy config) u pid name value put ∧ Saw t now ∧
        now ≤ put + SSM_CACHE_TTL)) ∨
    IsDefault config name a ∧ Missed t pid name :=
  TtlCache.replies_sourced (π := policy config) request_obeys (fun _ _ => rfl) h ht hreply

/-- The first request reads, the second of its process finds the entry, and the read of another process
fails. -/
def movesShared : List (Effect.Move (ssmSystem sampleConfig)) :=
  .start (.flag 1 .documentCrop) :: List.replicate 5 (.act 0 {}) ++
  .start (.flag 1 .documentCrop) :: List.replicate 4 (.act 1 {}) ++
  [.start (.flag 2 .documentCrop), .act 2 {}, .act 2 { fail := some (.exception "throttled") }, .act 2 {}]

def readsSource (ev : Effect.Event sig) : Bool :=
  match ev.op with
  | .read .. => true
  | _        => false

theorem not_didRead {t : Effect.Thread (ssmSystem config)}
    (h : t.trace.all (fun ev => !readsSource ev) = true) (value : String) : ¬ DidRead t pid name value :=
  fun hread => Bool.false_ne_true (List.all_eq_true.1 h _ hread)

theorem answer_sourced_sample : ∃ c t₀ t₁ t₂,
    Effect.play (.init (fresh fun _ => .ok "true")) movesShared = some c ∧ c.threads = [t₀, t₁, t₂] ∧
    (∀ value, ¬ DidRead t₁ 1 cropParam value) ∧
    ∀ t pid a, (t, pid, a) ∈ [(t₀, 1, Answer.flag (flagOf "true")), (t₁, 1, .flag (flagOf "true")),
        (t₂, 2, .flag (flagOf "false"))] →
      (∃ value, (a = .text value ∨ a = .flag (flagOf value)) ∧ (DidRead t pid cropParam value ∨
        ∃ u ∈ c.threads, ∃ put now, HasPut (policy sampleConfig) u pid cropParam value put ∧ Saw t now ∧
          now ≤ put + SSM_CACHE_TTL)) ∨
      IsDefault sampleConfig cropParam a ∧ Missed t pid cropParam := by
  obtain ⟨c, t₀, t₁, t₂, hplay, hthreads, hcached, h₀, h₁, h₂⟩ : ∃ c t₀ t₁ t₂,
      Effect.play (.init (fresh fun _ => .ok "true")) movesShared = some c ∧ c.threads = [t₀, t₁, t₂] ∧
      (∀ value, ¬ DidRead t₁ 1 cropParam value) ∧ 
      Replied t₀ 1 cropParam (.flag (flagOf "true")) ∧ Replied t₁ 1 cropParam (.flag (flagOf "true")) ∧
      Replied t₂ 2 cropParam (.flag (flagOf "false")) := by
    exact ⟨_, _, _, _, rfl, rfl, not_didRead rfl, ⟨_, List.mem_cons_self⟩, ⟨_, List.mem_cons_self⟩,
      ⟨_, List.mem_cons_self⟩⟩
  refine ⟨c, t₀, t₁, t₂, hplay, hthreads, hcached, fun t pid a ht => ?_⟩
  simp only [List.mem_cons, List.not_mem_nil, or_false, Prod.mk.injEq] at ht
  rcases ht with ⟨rfl, rfl, rfl⟩ | ⟨rfl, rfl, rfl⟩ | ⟨rfl, rfl, rfl⟩
  · exact answer_sourced hplay (by rw [hthreads]; simp) h₀
  · exact answer_sourced hplay (by rw [hthreads]; simp) h₁
  · exact answer_sourced hplay (by rw [hthreads]; simp) h₂

/-- **A parameter that has been changed is what every process answers with, from five minutes
after**, if no request was about to cache another value then and it is not changed again. A request
whose read fails gets the default. -/
theorem parameter_rolled_out (h₀ : Effect.play (.init (fresh source)) ms = some c₀) {new : String}
    (hnew : c₀.world.source name = .ok new)
    (hflight : NoneInFlight (policy config) (fun _ => True) name new c₀)
    (h₁ : Effect.play c₀ xs = some c₁) (hxs : Effect.Along (NoWrite name) c₀ xs)
    (hlate : c₀.world.clock + SSM_CACHE_TTL < c₁.world.clock)
    (h₂ : Effect.play c₁ ys = some c₂) (hys : Effect.Along (NoWrite name) c₁ ys) {i : Nat}
    {t : Effect.Thread (ssmSystem config)} (hi : c₁.threads.length ≤ i) (ht : c₂.threads[i]? = some t)
    (hreply : Replied t pid name a) :
    (a = .text new ∨ a = .flag (flagOf new)) ∨ IsDefault config name a ∧ Missed t pid name :=
  TtlCache.renewed_after_life (π := policy config) request_obeys (fun _ _ => rfl) h₀ hnew hflight h₁
    hxs hlate h₂ hys hi ht trivial hreply

theorem parameter_rolled_out_sample : ∃ c₀ c₁ c₂ t,
    Effect.play (.init (fresh fun _ => .ok "false")) movesBefore = some c₀ ∧
    Effect.play c₀ movesWhile = some c₁ ∧ Effect.play c₁ movesAfter = some c₂ ∧
    c₂.threads[3]? = some t ∧
    ((Answer.flag (flagOf "true") = .text "true" ∨
      Answer.flag (flagOf "true") = .flag (flagOf "true")) ∨
      IsDefault sampleConfig cropParam (.flag (flagOf "true")) ∧ Missed t 1 cropParam) := by
  obtain ⟨c₀, c₁, c₂, t, h₀, h₁, h₂, ht, hreply, hnew, hstages, hlate, hi, hxs, hys⟩ :
      ∃ c₀ c₁ c₂ t, Effect.play (.init (fresh fun _ => .ok "false")) movesBefore = some c₀ ∧
        Effect.play c₀ movesWhile = some c₁ ∧ Effect.play c₁ movesAfter = some c₂ ∧
        c₂.threads[3]? = some t ∧ Replied t 1 cropParam (.flag (flagOf "true")) ∧
        c₀.world.source cropParam = .ok "true" ∧
        (c₀.threads.map fun t => TtlCache.stageOf (π := policy sampleConfig) t) =
          [.stored 1 cropParam "false", .idle] ∧
        c₀.world.clock + SSM_CACHE_TTL < c₁.world.clock ∧ c₁.threads.length ≤ 3 ∧
        Effect.Along (NoWrite cropParam) c₀ movesWhile ∧
        Effect.Along (NoWrite cropParam) c₁ movesAfter :=
    ⟨_, _, _, _, rfl, rfl, rfl, rfl, ⟨_, List.mem_cons_self⟩, by decide +kernel, rfl,
      by decide +kernel, by decide +kernel, by decide +kernel, by decide +kernel⟩
  exact ⟨c₀, c₁, c₂, t, h₀, h₁, h₂, ht, parameter_rolled_out h₀ hnew
    (TtlCache.noneInFlight_of_stages hstages (by simp [Stage.Carries])) h₁ hxs hlate h₂ hys hi ht hreply⟩

end

end DocumentAi.Ssm
