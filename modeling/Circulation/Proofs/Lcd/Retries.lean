import Mathlib.Tactic.ByContra
import Circulation.Lcd.Client

/-!
# How often a request is sent

A request is sent until a delivery is final or the retries are used up, whichever comes first, and what
is returned is what the last delivery is worth. The statements are about a network that follows a
script, which has the delivery of every request in advance, whatever it is. Between two requests there
is one pause, which is announced before it is made. The count of responses goes along with any program:
it changes nothing of what happens and grows by one with every response.

## Main definitions

* `Circulation.Lcd.Happening` — what happens while a program runs over the network.
* `Circulation.Lcd.Requesting.play` — a program over a network that follows a script.
* `Circulation.Lcd.Delivery.IsPassing`, `Circulation.Lcd.Delivery.Returns` — the deliveries that are
  not final, and what a delivery is worth.
* `Circulation.Lcd.Client.ConcludesAt` — a request comes to its end with a delivery.

## Main results

* `Circulation.Lcd.Requesting.play_countedFrom` — every response of a program is counted once.
* `Circulation.Lcd.Client.play_fetchFrom_again`, `Circulation.Lcd.Client.play_fetchFrom_settle` — one
  request, which is sent again or not.
* `Circulation.Lcd.Client.play_fetch` — how often a request is sent and what is returned.
-/

namespace Circulation.Lcd

/-! ### Networks that follow a script -/

/-- What happens while a program runs over the network. -/
inductive Happening where
  | sent (url : String)
  | paused (milliseconds : Nat)
  | noted (e : Event)
  deriving DecidableEq, Repr

namespace Happening

/-- The URL of a request. -/
def url? : Happening → Option String
  | sent url => some url
  | _ => none

/-- The number of an attempt that is announced to be made again, and the pause before that. -/
def retry? : Happening → Option (Nat × Nat)
  | noted (.requestRetried _ attempt milliseconds _) => some (attempt, milliseconds)
  | _ => none

end Happening

namespace Requesting

variable {α : Type} (script : Nat → Delivery)

/-- The network that answers requests by a script, in the order in which they are sent. -/
def scripted : (q : Network) → StateM (List Happening) q.Answer
  | .send url => do
    let history ← get
    set (history ++ [.sent url])
    return script (history.filterMap Happening.url?).length
  | .pause milliseconds => do
    modify (· ++ [.paused milliseconds])

/-- A program over a network that follows a script, with all that happens after what has happened
before. -/
def play (p : Requesting α) (before : List Happening) : α × List Happening :=
  (p.interpret (scripted script) fun e => modify (· ++ [.noted e])).run before

variable (before : List Happening)

theorem play_done (a : α) : play script (.done a) before = (a, before) := rfl

theorem play_note (e : Event) (next : Requesting α) :
    play script (.note e next) before = play script next (before ++ [.noted e]) := rfl

theorem play_send (url : String) (next : Delivery → Requesting α) :
    play script (.ask (.send url) next) before =
      play script (next (script (before.filterMap Happening.url?).length)) (before ++ [.sent url]) := rfl

theorem play_pause (milliseconds : Nat) (next : Unit → Requesting α) :
    play script (.ask (.pause milliseconds) next) before =
      play script (next ()) (before ++ [.paused milliseconds]) := rfl

/-! ### Counting -/

/-- The number of responses among some deliveries in succession. -/
def responses (script : Nat → Delivery) (first count : Nat) : Nat :=
  (List.range' first count).countP fun i => isResponse (script i)

theorem add_responses_succ (n first count : Nat) :
    (if isResponse (script first) then n + 1 else n) + responses script (first + 1) count =
      n + responses script first (count + 1) := by
  rw [responses, responses, List.range'_succ, List.countP_cons]
  split <;> omega

/-- Only requests have a URL. -/
theorem filterMap_url?_concat {x : Happening} (h : x.url? = none) :
    (before ++ [x]).filterMap Happening.url? = before.filterMap Happening.url? := by
  rw [List.filterMap_append, List.filterMap_cons_none h, List.filterMap_nil, List.append_nil]

/-- **Every response is counted once**, and the count changes nothing else: a program that is counted
comes to the same result with the same happenings, and the count goes up by the number of those of its
requests that find a response. -/
theorem play_countedFrom (n : Nat) (p : Requesting α) :
    ∃ count, ((play script p before).2.filterMap Happening.url?).length =
        (before.filterMap Happening.url?).length + count ∧
      play script (countedFrom n p) before =
        (((play script p before).1, n + responses script (before.filterMap Happening.url?).length count),
          (play script p before).2) := by
  induction p generalizing n before with
  | done a => exact ⟨0, rfl, rfl⟩
  | note e next ih =>
    obtain ⟨count, hsent, hplay⟩ := ih (before ++ [.noted e]) n
    rw [filterMap_url?_concat before rfl] at hsent hplay
    exact ⟨count, hsent, hplay⟩
  | ask q next ih =>
    cases q with
    | send url =>
      have hbefore : ((before ++ [Happening.sent url]).filterMap Happening.url?).length =
          (before.filterMap Happening.url?).length + 1 := by
        rw [List.filterMap_append, List.length_append]
        rfl
      let delivery := script (before.filterMap Happening.url?).length
      obtain ⟨count, hsent, hplay⟩ := ih delivery (before ++ [.sent url])
        (if isResponse delivery then n + 1 else n)
      rw [hbefore] at hsent hplay
      refine ⟨count + 1, ?_, ?_⟩
      · rw [play_send, hsent]
        omega
      · rw [countedFrom, play_send, play_send, hplay, add_responses_succ]
    | pause milliseconds =>
      obtain ⟨count, hsent, hplay⟩ := ih () (before ++ [.paused milliseconds]) n
      rw [filterMap_url?_concat before rfl] at hsent hplay
      exact ⟨count, hsent, hplay⟩

end Requesting

/-! ### Deliveries -/

namespace Delivery

/-- The deliveries that are not final: no response, an error of the server, and the refusal of too many
requests. -/
def IsPassing : Delivery → Prop
  | .failed _ => True
  | .response status _ => 500 ≤ status ∧ status ≤ 599 ∨ status = 429

/-- What a delivery is worth when nothing is sent after it. -/
inductive Returns : Delivery → Except QueryError String → Prop
  | success {status : Nat} {body : String} (h : 200 ≤ status ∧ status ≤ 299) :
      Returns (.response status body) (.ok body)
  | refusal {status : Nat} {body : String} (h : ¬(200 ≤ status ∧ status ≤ 299)) :
      Returns (.response status body) (.error (.refused status body))
  | failure {why : String} : Returns (.failed why) (.error (.transport why))

variable {d : Delivery}

theorem isSuccess_iff {status : Nat} : isSuccess status = true ↔ 200 ≤ status ∧ status ≤ 299 := by
  simp [isSuccess]
  omega

theorem isRetryable_iff : d.isRetryable = true ↔ d.IsPassing := by
  cases d with
  | failed why => exact iff_of_true rfl trivial
  | response status body =>
    simp [isRetryable, isTransient, IsPassing]
    omega

theorem returns_result (d : Delivery) : d.Returns d.result := by
  cases d with
  | failed why => exact .failure
  | response status body =>
    by_cases h : isSuccess status = true
    · rw [result, if_pos h]
      exact .success (isSuccess_iff.mp h)
    · rw [result, if_neg h]
      exact .refusal (mt isSuccess_iff.mpr h)

/-- What passes is worth an error. -/
theorem Returns.exists_eq_error {outcome : Except QueryError String} (h : d.Returns outcome)
    (hd : d.IsPassing) : ∃ why, outcome = .error why := by
  cases h with
  | @success status body h =>
    have hstatus : 500 ≤ status ∧ status ≤ 599 ∨ status = 429 := hd
    omega
  | refusal _ => exact ⟨_, rfl⟩
  | failure => exact ⟨_, rfl⟩

end Delivery

namespace Client

open Program Requesting

/-! ### One request -/

/-- What happens with a request that is sent again: the pause is announced, and made. -/
def retrial (base : Nat) (url : String) (attempt : Nat) (d : Delivery) : List Happening :=
  [.sent url, .noted (.requestRetried url attempt (backoff base attempt) d.why),
    .paused (backoff base attempt)]

/-- What happens with the last request. Success is announced. -/
def conclusion (url : String) (d : Delivery) : List Happening :=
  .sent url :: if d.result.isOk then [.noted (.requestAnswered url)] else []

section Step

variable {script : Nat → Delivery} {before : List Happening} {attempt : Nat} {url : String}

/-- The last request: there is no retry left, or the delivery is final. -/
theorem play_fetchFrom_settle (hbefore : (before.filterMap Happening.url?).length = attempt) {left : Nat}
    (h : left = 0 ∨ ¬(script attempt).IsPassing) (base : Nat) :
    play script (fetchFrom base url attempt left) before =
      ((script attempt).result, before ++ conclusion url (script attempt)) := by
  subst hbefore
  have hsettle : ∀ d : Delivery, play script (settle url d) (before ++ [.sent url]) =
      (d.result, before ++ conclusion url d) := by
    intro d
    rw [settle, mentionIf, conclusion]
    cases d.result.isOk with
    | true =>
      simp only [if_true, bind_eq_bind, mention, note_bind, done_bind, pure_eq_done, play_note, play_done,
        List.append_assoc]
      rfl
    | false => rfl
  cases left with
  | zero => exact hsettle _
  | succ left =>
    have hfinal := Bool.eq_false_iff.mpr (mt Delivery.isRetryable_iff.mp (h.resolve_left (by omega)))
    refine Eq.trans ?_ (hsettle _)
    rw [fetchFrom, bind_eq_bind, Requesting.send, ask_bind, play_send, done_bind, hfinal]
    rfl

/-- A request that is sent again, after a pause. -/
theorem play_fetchFrom_again (hbefore : (before.filterMap Happening.url?).length = attempt)
    (h : (script attempt).IsPassing) (base left : Nat) :
    play script (fetchFrom base url attempt (left + 1)) before =
      play script (fetchFrom base url (attempt + 1) left)
        (before ++ retrial base url attempt (script attempt)) := by
  subst hbefore
  rw [fetchFrom, bind_eq_bind, Requesting.send, ask_bind, play_send, done_bind,
    Delivery.isRetryable_iff.mpr h]
  simp only [if_true, bind_eq_bind, mention, note_bind, done_bind, play_note, pause, ask_bind, play_pause,
    List.append_assoc]
  rfl

end Step

/-! ### All requests -/

section Run

variable {script : Nat → Delivery} {url : String}

/-- **A run of retries**: as long as deliveries pass and there are retries left, the request is sent
again. -/
theorem play_fetchFrom {before : List Happening} {attempt : Nat}
    (hbefore : (before.filterMap Happening.url?).length = attempt) {retries left : Nat}
    (hle : retries ≤ left) (hpassing : ∀ i < retries, (script (attempt + i)).IsPassing)
    (hlast : left = retries ∨ ¬(script (attempt + retries)).IsPassing) (base : Nat) :
    play script (fetchFrom base url attempt left) before =
      ((script (attempt + retries)).result,
        before ++ ((List.range' attempt retries).flatMap fun i => retrial base url i (script i)) ++
          conclusion url (script (attempt + retries))) := by
  induction retries generalizing attempt left before with
  | zero =>
    rw [play_fetchFrom_settle hbefore hlast]
    simp
  | succ retries ih =>
    obtain ⟨left, rfl⟩ : ∃ left', left = left' + 1 := ⟨left - 1, by omega⟩
    have hshift : ∀ i, attempt + 1 + i = attempt + (i + 1) := fun i => by omega
    have hnext : ((before ++ retrial base url attempt (script attempt)).filterMap
        Happening.url?).length = attempt + 1 := by
      rw [List.filterMap_append, List.length_append, hbefore]
      rfl
    rw [play_fetchFrom_again hbefore (hpassing 0 (by omega)), ih hnext (by omega)
      (fun i hi => hshift i ▸ hpassing (i + 1) (by omega))
      (by rw [hshift]; exact hlast.imp_left Nat.succ.inj),
      hshift, List.range'_succ, List.flatMap_cons, List.append_assoc, List.append_assoc,
      List.append_assoc, List.append_assoc]

end Run

/-- A request comes to its end with the delivery of number `last`: it is sent once for this delivery and
for each before it, all of which are followed by the pause of their number, what is returned is what the
last delivery is worth, and the responses are counted on from `n`. -/
structure ConcludesAt (c : Client) (path : String) (script : Nat → Delivery) (n last : Nat)
    (played : (Except QueryError String × Nat) × List Happening) : Prop where
  sends : played.2.filterMap Happening.url? = List.replicate (last + 1) (c.baseUrl ++ path)
  announces : played.2.filterMap Happening.retry? =
    (List.range last).map fun i => (i, backoff c.config.backoffMs i)
  history : played.2 =
    ((List.range last).flatMap fun i => retrial c.config.backoffMs (c.baseUrl ++ path) i (script i)) ++
      conclusion (c.baseUrl ++ path) (script last)
  returns : (script last).Returns played.1.1
  counts : played.1.2 = n + (List.range (last + 1)).countP fun i => isResponse (script i)

section Course

variable {α : Type} {f : Happening → Option α}

theorem filterMap_retrials {base : Nat} {url : String} {script : Nat → Delivery} {a : Nat → α}
    (h : ∀ i, (retrial base url i (script i)).filterMap f = [a i]) (is : List Nat) :
    (is.flatMap fun i => retrial base url i (script i)).filterMap f = is.map a := by
  rw [List.filterMap_flatMap, List.map_eq_flatMap]
  simp only [h]

theorem filterMap_conclusion {url : String} (h : f (.noted (.requestAnswered url)) = none)
    (d : Delivery) : (conclusion url d).filterMap f = (f (.sent url)).toList := by
  unfold conclusion
  split <;> cases hsent : f (.sent url) <;> simp [hsent, h]

end Course

/-- A request comes to its end with the first delivery that is final or finds no retry left. -/
theorem concludesAt_play (c : Client) (path : String) {script : Nat → Delivery} {last : Nat}
    (hle : last ≤ c.config.maxRetries) (hpassing : ∀ i < last, (script i).IsPassing)
    (hlast : c.config.maxRetries = last ∨ ¬(script last).IsPassing) (n : Nat) :
    c.ConcludesAt path script n last (play script (countedFrom n (c.fetch path)) []) := by
  have hbefore : (List.filterMap Happening.url? []).length = 0 := rfl
  have hpassing₀ : ∀ i < last, (script (0 + i)).IsPassing := by simpa using hpassing
  have hlast₀ : c.config.maxRetries = last ∨ ¬(script (0 + last)).IsPassing := by simpa using hlast
  have hplay : play script (c.fetch path) [] = ((script last).result,
      ((List.range last).flatMap fun i =>
        retrial c.config.backoffMs (c.baseUrl ++ path) i (script i)) ++
          conclusion (c.baseUrl ++ path) (script last)) := by
    rw [fetch, play_fetchFrom hbefore hle hpassing₀ hlast₀, Nat.zero_add, List.nil_append,
      List.range_eq_range']
  have hsends : (play script (c.fetch path) []).2.filterMap Happening.url? =
      List.replicate (last + 1) (c.baseUrl ++ path) := by
    rw [hplay, List.filterMap_append, filterMap_retrials (fun _ => rfl), filterMap_conclusion rfl,
      List.map_const', List.length_range]
    exact List.replicate_succ'.symm
  obtain ⟨count, hcount, hcounted⟩ := play_countedFrom script [] n (c.fetch path)
  obtain rfl : count = last + 1 := by
    rw [hsends, List.length_replicate, hbefore] at hcount
    omega
  rw [hcounted]
  refine ⟨hsends, ?_, congrArg Prod.snd hplay, ?_, ?_⟩
  · rw [hplay, List.filterMap_append, filterMap_retrials (fun _ => rfl), filterMap_conclusion rfl]
    exact List.append_nil _
  · rw [hplay]
    exact (script last).returns_result
  · rw [responses, List.range_eq_range']
    rfl

/-- **How often a request is sent**, whatever becomes of it each time. It ends with the first final
delivery if that is in reach of the retries, and returns what this delivery is worth. Otherwise it ends
when the retries are used up, with the error of the last delivery. -/
theorem play_fetch (c : Client) (path : String) (script : Nat → Delivery) (n : Nat) :
    let played := play script (countedFrom n (c.fetch path)) []
    (∀ k ≤ c.config.maxRetries, (∀ i < k, (script i).IsPassing) → ¬(script k).IsPassing →
      c.ConcludesAt path script n k played) ∧
    ((∀ k, (∀ i < k, (script i).IsPassing) → ¬(script k).IsPassing → c.config.maxRetries < k) →
      c.ConcludesAt path script n c.config.maxRetries played ∧ ∃ why, played.1.1 = .error why) := by
  intro played
  refine ⟨fun k hk hpassing hfinal => concludesAt_play c path hk hpassing (.inr hfinal) n, ?_⟩
  intro hlate
  have hpassing : ∀ i ≤ c.config.maxRetries, (script i).IsPassing := by
    intro i
    induction i using Nat.strongRecOn with
    | _ i ih =>
      intro hi
      by_contra hfinal
      exact absurd (hlate i (fun j hj => ih j hj (by omega)) hfinal) (Nat.not_lt.mpr hi)
  have hends := concludesAt_play c path (Nat.le_refl _) (fun i hi => hpassing i (Nat.le_of_lt hi))
    (.inl rfl) n
  exact ⟨hends, hends.returns.exists_eq_error (hpassing _ (Nat.le_refl _))⟩

/-- An error of the server, no response, and then success. -/
def busyScript : Nat → Delivery
  | 0 => .response 503 "busy"
  | 1 => .failed "timed out"
  | _ => .response 200 "ok"

/-- Success comes with the last of three attempts, which is the second response. -/
theorem play_fetch_busy :
    let c : Client := ⟨{ maxRetries := 2 }, "http://host"⟩
    let played := play busyScript (countedFrom 0 (c.fetch "/path")) []
    (∀ i < 2, (busyScript i).IsPassing) ∧ ¬(busyScript 2).IsPassing ∧ played.1 = (.ok "ok", 2) ∧
      c.ConcludesAt "/path" busyScript 0 2 played := by
  intro c played
  have hpassing : ∀ i < 2, (busyScript i).IsPassing := by
    intro i hi
    obtain rfl | rfl : i = 0 ∨ i = 1 := by omega
    · exact .inl ⟨by decide, by decide⟩
    · exact trivial
  have hfinal : ¬(busyScript 2).IsPassing := show ¬(500 ≤ 200 ∧ 200 ≤ 599 ∨ 200 = 429) by decide
  exact ⟨hpassing, hfinal, rfl,
    (play_fetch c "/path" busyScript 0).1 2 (Nat.le_refl 2) hpassing hfinal⟩

end Client

end Circulation.Lcd
