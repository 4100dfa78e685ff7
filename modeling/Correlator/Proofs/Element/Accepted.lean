import Correlator.Proofs.Config.Accepted
import Correlator.Proofs.Element.Publishing
import Correlator.Proofs.Text.Blank

/-!
# The elements of a document with which nothing is wrong

What validation has found right is looked at again when an element is built, and is found right
then, but for some URLs: validation takes every URL with opening braces for a template, and reads
one with the white space around it.

* `Url.HasPlainEnds`: the white space around a URL is that of the ASCII range;
  `exists_readStatic_readUrl_iff`: then it is read just when it is a template or a URL.
* `RequestSink.unchecked`, `ResponseSink.unchecked`, `Element.unchecked`: what is built if ids and
  paths are not looked at again; `Element.ofConfig_of_acceptable`: the same as if they are.
* **`Element.ofConfig_of_accepted`**: what this means for the elements of a document with which
  nothing is wrong; `Element.refused_of_accepted`: two of them that are refused.
-/

namespace Correlator

open Text

/-! ## URLs -/

/-- The white space around a URL is that of the ASCII range. -/
def Url.HasPlainEnds (url : String) : Prop :=
  ∃ l r, url.toList = l ++ trim url.toList ++ r ∧ ∀ c ∈ l ++ r, isEdge c = true

/-- White space of the ASCII range around a URL makes no difference. -/
theorem Url.parse_trimmed {url : String} (h : HasPlainEnds url) :
    parse (trimmed url) = parse url := by
  obtain ⟨l, r, hends, hedge⟩ := h
  rw [List.forall_mem_append] at hedge
  have hstrip : strip isEdge url.toList = strip isEdge (trim url.toList) :=
    (congrArg (strip isEdge) hends).trans (strip_append hedge.1 hedge.2 _)
  simp only [parse, trimmed, String.toList_ofList, hstrip]

theorem exists_readStatic_readUrl_iff {url : String} (h : Url.HasPlainEnds url) :
    (∃ url?, readStatic readUrl url = .ok url?) ↔
      Template.isDynamic url = true ∨ ∃ u, Url.parse url = .ok u := by
  unfold readStatic
  by_cases hdynamic : Template.isDynamic url = true
  · simp [hdynamic]
  · rw [if_neg hdynamic, readUrl, Url.parse_trimmed h]
    cases Url.parse url with
    | error e => simp [hdynamic, Except.map]
    | ok u => simp [Except.map]

/-- A URL without opening braces that was found right is one. -/
theorem exists_parse_of_not_hasMark {url : String}
    (hopen : ¬ hasMark Template.opening url.toList = true)
    (h : Config.Survey.isBadUrl url = false) : ∃ u, Url.parse url = .ok u := by
  cases hparse : Url.parse url with
  | error e =>
    refine absurd ?_ hopen
    simpa [Config.Survey.isBadUrl, hparse, Template.opening] using h
  | ok u => exact ⟨u, rfl⟩

/-! ## Building without looking again -/

/-- The sink of a configuration whose id and path to download to are not looked at. -/
def RequestSink.unchecked (c : RequestSinkConfig) (consumer? : Option Consumer) :
    Except Fault RequestSink := do
  let method ← (c.method?.map readMethod).getD (.ok defaultMethod)
  let url? ← (readStatic readUrl c.url).mapError (invalidUrl c.sinkId)
  let headers? ← readStatic Listing.read c.headers
  return ⟨c, method, url?, headers?, consumer?⟩

/-- The sink of a configuration whose id is not looked at. -/
def ResponseSink.unchecked (c : ResponseSinkConfig) : Except Fault ResponseSink := do
  if !Status.isValid c.status then
    throw (.configuration ("invalid status code " ++ Key.statusText c.status))
  let headers? ← readStatic Listing.read c.headers
  return ⟨c, headers?⟩

namespace Element

/-- The element of a configuration whose id and paths are not looked at. -/
def unchecked (c : ElementConfig) (consumer : Consumer) (direct : Bool) : Except Fault Element :=
  match c with
  | .requestSink c =>
    (RequestSink.unchecked c (if direct then some consumer else none)).map
      fun s => ⟨.requestSink s, false⟩
  | .responseSink c => (ResponseSink.unchecked c).map fun s => ⟨.responseSink s, false⟩
  | .requestSource c => .ok ⟨.requestSource c consumer, false⟩
  | .responseSource c => .ok ⟨.responseSource c consumer, false⟩

theorem ofConfig_of_acceptable {c : ElementConfig} (h : c.IsAcceptable) (consumer : Consumer)
    (direct : Bool) : ofConfig c consumer direct = unchecked c consumer direct := by
  obtain ⟨howner, hoptions⟩ := h
  cases c with
  | requestSink c =>
    obtain ⟨-, hdownload⟩ := hoptions
    have hid : isBlank c.sinkId = false := howner
    have hpath : (c.download && (c.downloadPath?.map isBlank).getD true) = false := by
      rw [← hdownload]
      cases hpath : c.downloadPath? <;> simp [Config.Survey.lacksPath, hpath]
    simp only [ofConfig, unchecked, RequestSink.ofConfig, RequestSink.unchecked, hid, hpath]
    rfl
  | responseSink c =>
    have hid : isBlank c.sourceId = false := howner
    simp only [ofConfig, unchecked, ResponseSink.ofConfig, ResponseSink.unchecked, hid]
    rfl
  | requestSource c =>
    have hid : isBlank c.sourceId = false := howner
    have hrooted : Config.isRooted c.path = true := hoptions
    have hpath : (c.path.toList.head? != some '/') = false := by
      simpa [Config.isRooted] using hrooted
    simp only [ofConfig, unchecked, checkRequestSource, hid, hpath]
    rfl
  | responseSource c =>
    have hid : isBlank c.sinkId = false := howner
    simp only [ofConfig, unchecked, checkResponseSource, hid]
    rfl

/-- **What validation has found right is not refused**, but for some URLs. If nothing is wrong with
a document, then its elements are built as if ids and paths were not looked at again. With no white
space around it but that of the ASCII range, a URL that has no opening braces is read, and one that
has is read just when it is a template or a URL. -/
theorem ofConfig_of_accepted {config : Config} {p : PipelineConfig} {c : ElementConfig}
    (h : config.problems = []) (hp : p ∈ config.pipelines) (hc : c ∈ p.elements) :
    (∀ consumer direct, ofConfig c consumer direct = unchecked c consumer direct) ∧
      ∀ s, c = .requestSink s → Url.HasPlainEnds s.url →
        ((∃ url?, readStatic readUrl s.url = .ok url?) ↔
          (hasMark Template.opening s.url.toList = true →
            Template.isDynamic s.url = true ∨ ∃ u, Url.parse s.url = .ok u)) := by
  obtain ⟨-, haccept, -⟩ := Config.problems_eq_nil_iff.1 h
  have hacceptable := (haccept p hp).2 c hc
  refine ⟨ofConfig_of_acceptable hacceptable, ?_⟩
  rintro s rfl hends
  rw [exists_readStatic_readUrl_iff hends]
  refine ⟨fun hread _ => hread, fun hread => ?_⟩
  by_cases hopen : hasMark Template.opening s.url.toList = true
  · exact hread hopen
  · exact .inr (exists_parse_of_not_hasMark hopen hacceptable.2.1)

/-- A document with one pipeline, which has one sink that sends to a URL. -/
def sendingTo (url : String) : Config :=
  { pipelines := [⟨"app", [.requestSink { press with url }]⟩] }

/-- The URL of the press stands between blanks, and has no opening braces. It is read. -/
theorem ofConfig_of_accepted_press :
    (sendingTo press.url).problems = [] ∧ Url.HasPlainEnds press.url ∧
      (∀ consumer direct, ofConfig (.requestSink press) consumer direct =
        unchecked (.requestSink press) consumer direct) ∧
      ∃ url?, readStatic readUrl press.url = .ok url? := by
  have hproblems : (sendingTo press.url).problems = [] := by decide +kernel
  have hedge : ∀ c ∈ [' ', ' '], Url.isEdge c = true :=
    List.forall_mem_cons.2 ⟨rfl, List.forall_mem_singleton.2 rfl⟩
  have hends : Url.HasPlainEnds press.url := ⟨[' '], [' '], by decide +kernel, hedge⟩
  have hmem : (⟨"app", [.requestSink press]⟩ : PipelineConfig) ∈
      (sendingTo press.url).pipelines := List.mem_cons_self
  have hpress : ElementConfig.requestSink press ∈ [ElementConfig.requestSink press] :=
    List.mem_cons_self
  obtain ⟨hbuilt, hread⟩ := ofConfig_of_accepted hproblems hmem hpress
  have hopen : hasMark Template.opening press.url.toList = false := by decide
  exact ⟨hproblems, hends, hbuilt,
    (hread press rfl hends).2 fun h => absurd h (Bool.eq_false_iff.1 hopen)⟩

/-- Nothing is found wrong with a URL whose opening braces are not closed, or with one that ends in
a blank beyond the ASCII range. The sink refuses them: the one is neither a template nor a URL, and
the other has no host once it is trimmed. -/
theorem refused_of_accepted :
    (sendingTo "\x7b\x7bopen").problems = [] ∧
      (ofConfig (.requestSink { press with url := "\x7b\x7bopen" }) (.steady "app") false).map
          (fun _ => ()) =
        .error (RequestSink.invalidUrl "press"
          (.invalidRequest "url '\x7b\x7bopen': relative URL without a base")) ∧
      (sendingTo "foo://user@\u00a0").problems = [] ∧
      (ofConfig (.requestSink { press with url := "foo://user@\u00a0" }) (.steady "app") false).map
          (fun _ => ()) =
        .error (RequestSink.invalidUrl "press"
          (.invalidRequest "url 'foo://user@\u00a0': empty host")) :=
  ⟨by decide +kernel, by decide +kernel, by decide +kernel, by decide +kernel⟩

end Element

end Correlator
