import AntelopeFirewall.Firewall.Ceilings

/-!
# What the Firewall Leaves Alone

A request that is sent to a node carries the bytes and the headers of its client, and the client
gets the status, the bytes and the headers of the node. Here is what is changed on the way.

- `SentFaithfully` and `AnsweredFaithfully` are the two directions,
- `relayed_faithfully` says so of the requests of a firewall, in any interleaving.
-/

namespace AntelopeFirewall

open Library Library.Concurrent

/-! ## Headers of a response -/

/-- Two headers are rewritten in a response. -/
theorem getAll_nameUpstream_ne (crates : Crates) (node : NodeEntry) (headers : HeaderMap)
    {name : String} (hupstream : name ≠ upstreamHeaderKey) (hexpose : name ≠ exposeHeadersKey) :
    (nameUpstream crates node headers).getAll name = headers.getAll name := by
  unfold nameUpstream
  cases crates.headerFromStr node.name with
  | none => rfl
  | some value =>
    dsimp only
    split
    · exact HeaderMap.getAll_insert_ne _ hupstream value
    · split
      · rw [HeaderMap.getAll_insert_ne _ hexpose, HeaderMap.getAll_remove_ne _ hexpose,
          HeaderMap.getAll_insert_ne _ hupstream]
      · rw [HeaderMap.getAll_append_ne _ hexpose, HeaderMap.getAll_insert_ne _ hupstream]

theorem getAll_relayHeaders_ne (crates : Crates) (chosen : Option NodeEntry) (path : String)
    (answeredBy : Url) (headers : HeaderMap) {name : String}
    (hupstream : name ≠ upstreamHeaderKey) (hexpose : name ≠ exposeHeadersKey) :
    (relayHeaders crates chosen path answeredBy headers).getAll name = headers.getAll name := by
  have hremoved := HeaderMap.getAll_remove_ne headers hupstream
  unfold relayHeaders
  cases chosen with
  | none => exact hremoved
  | some node =>
    dsimp only
    split
    · rw [getAll_nameUpstream_ne crates node _ hupstream hexpose, hremoved]
    · exact hremoved

namespace Firewall

/-- What is sent for a request: its bytes and its headers, to its path at the chosen node. Only
the host is rewritten, and the query is left out. -/
structure SentFaithfully (crates : Crates) (request : Request) (d : Dispatch) : Prop where
  body : bodyBytes request = some d.sent.body
  headers : ∀ name, name ≠ "host" → d.sent.headers.getAll name = request.headers.getAll name
  host : ∀ host, d.sent.url.hostStr = some host →
    ∃ value, crates.headerFromStr host = some value ∧ d.sent.headers.getAll "host" = [value]
  url : ∀ node, d.chosen = some node →
    d.sent.url = (crates.setPath node.url request.uri.path).setQuery none

/-- What is answered for a reply: its status, its bytes and its headers. Only the two headers that
name the node are rewritten. -/
structure AnsweredFaithfully (reply : NodeReply) (response : Response) : Prop where
  status : response.status = reply.status
  body : reply.body = some response.body
  headers : ∀ name, name ≠ upstreamHeaderKey → name ≠ exposeHeadersKey →
    response.headers.getAll name = reply.headers.getAll name

variable {F : Type} [F32 F] {fw : Firewall} {crates : Crates} {request : Request}
  {peer : IpAddr} {env : Env} {found : Guarded}

theorem forward_faithful {chosen : Option NodeEntry} {received : Received} {sent : Sent}
    (h : forward crates chosen received = .ok sent) :
    sent.body = received.bytes ∧
      (∀ name, name ≠ "host" → sent.headers.getAll name = received.info.headers.getAll name) ∧
      ∀ host, sent.url.hostStr = some host →
        ∃ value, crates.headerFromStr host = some value ∧
          sent.headers.getAll "host" = [value] := by
  unfold forward at h
  dsimp only at h
  split at h
  · cases h
  · next url hurl =>
    -- without a host in the URL no header is written, and with one only that header
    split at h
    · next hhost =>
      cases h
      refine ⟨rfl, fun _ _ => rfl, fun host hsome => ?_⟩
      rw [hhost] at hsome
      cases hsome
    · next name hhost =>
      split at h
      · next value hvalue =>
        cases h
        refine ⟨rfl, fun _ hname => HeaderMap.getAll_insert_ne _ hname value, fun host hsome => ?_⟩
        obtain rfl : name = host := Option.some_inj.mp (hhost.symm.trans hsome)
        exact ⟨value, hvalue, HeaderMap.getAll_insert_self ..⟩
      · cases h

theorem dispatch_faithful {d : Dispatch}
    (h : (fw.dispatch F crates request peer env found).1 = .ok d) :
    SentFaithfully crates request d := by
  obtain ⟨hreceived, -, -, hforward⟩ := dispatch_ok_iff.mp h
  obtain ⟨-, -, hinfo, hbytes, -⟩ := receive_ok_iff.mp hreceived
  obtain ⟨hbody, hheaders, hhost⟩ := forward_faithful hforward
  obtain ⟨base, hurl, hbase⟩ := forward_url hforward
  refine ⟨hbody ▸ hbytes, ?_, hhost, fun node hnode => ?_⟩
  · intro name hname
    rw [hheaders name hname, hinfo]
  · rw [hurl, hbase node hnode, hinfo]

/-- The answer to a request that was sent is that of the node, or says that there is none. -/
theorem relay_faithful {d : Dispatch} {reply : Option NodeReply} {metrics : Metrics.State}
    {charge : Nat → ChargeReadings} {counts : Nat → WindowState} {response : Response}
    (h : (fw.relay crates d reply metrics charge counts).1 = some response) :
    response = getErrorResponse "Error forwarding request." ∨
      ∃ answer, reply = some answer ∧ AnsweredFaithfully answer response := by
  rcases relay_cases h with herror | ⟨answer, bytes, hanswer, hbody, rfl⟩
  · exact .inl herror
  · -- the relaying writes no other header than the two of the firewall
    exact .inr ⟨answer, hanswer, rfl, hbody, fun name hupstream hexpose =>
      getAll_relayHeaders_ne _ _ _ _ _ hupstream hexpose⟩

/-- **Transparency**: in any interleaving, a request that was sent to a node was sent its own bytes
and headers, but for the host, and what its client gets is what the node answered to it, but for
the headers that name the node, or the error of the firewall. -/
theorem relayed_faithfully (F : Type) [F32 F] (fw : Firewall) (crates : Crates)
    (shared : ∀ part : Part fw, part.State) (events : List (System.Event (fw.system F crates)))
    (j : Nat) (task : Task) (handled : Handled) (d : Dispatch)
    (htask : (after F fw crates shared events).parties[j]? = some task)
    (hended : task.progress = .ended handled) (hsent : handled.dispatched = some d) :
    ∃ incoming, (System.arrivals events)[j]? = some incoming ∧
      SentFaithfully crates incoming.request d ∧
      ∀ response, handled.response = some response →
        response = getErrorResponse "Error forwarding request." ∨
        ∃ answer, incoming.env.reply = some answer ∧ AnsweredFaithfully answer response := by
  obtain ⟨incoming, found, progress, hincoming, rfl, hreached⟩ := reached_of_mem htask
  dsimp only at hended
  subst hended
  generalize System.visitsBy j (logOf F fw crates shared events) = visits at hreached
  cases hreached with
  | ended hhandled =>
    -- An ended request is what its call dispatched, and the call relays the answer.
    have hdispatched : (fw.dispatch F crates incoming.request incoming.peer incoming.env
        found).1 = .ok d := by
      rw [← handleRequest_dispatched, hhandled]
      exact hsent
    refine ⟨incoming, hincoming, dispatch_faithful hdispatched, fun response hresponse => ?_⟩
    rw [← hhandled, handleRequest_of_dispatch hdispatched] at hresponse
    exact relay_faithful hresponse

/-- The first of three requests is answered as the node answers. -/
theorem relayed_faithfully_first :
    ∃ d answer response, SentFaithfully nullDocument (answeredWith 200).request d ∧
      (answeredWith 200).env.reply = some answer ∧ AnsweredFaithfully answer response := by
  -- The first of the three requests is sent and answered with 200.
  have hfirst : ((afterThree .attempt 1 200).parties.map Task.status)[0]? = some (some 200) := by
    rw [threeAtOnce_statuses]
    rfl
  obtain ⟨task, handled, htask, hended, hstatus⟩ := ended_of_statuses hfirst
  obtain ⟨response, hresponse, hstatus⟩ := Option.map_eq_some_iff.mp hstatus
  obtain ⟨same, d, hsame, hdispatched⟩ : ∃ task d,
      (afterThree .attempt 1 200).parties[0]? = some task ∧ Task.dispatched task = some d :=
    dispatched_of_places (by decide +kernel)
  obtain rfl : task = same := Option.some_inj.mp (htask.symm.trans hsame)
  have hsent : handled.dispatched = some d := by
    unfold Task.dispatched at hdispatched
    rwa [hended] at hdispatched
  obtain ⟨incoming, hincoming, hfaithful, hanswered⟩ := relayed_faithfully ℚ
    (servingOne .attempt 1) nullDocument (fresh (servingOne .attempt 1) 0)
    (threeAtOnce .attempt 1 200) 0 task handled d htask hended hsent
  obtain rfl : answeredWith 200 = incoming := Option.some_inj.mp hincoming
  rcases hanswered response hresponse with rfl | ⟨answer, hreply, hrelayed⟩
  · -- the error of the firewall has another status
    cases hstatus
  · exact ⟨d, answer, response, hfaithful, hreply, hrelayed⟩

end Firewall

end AntelopeFirewall
