/- digest: What the HTTP server passes to a handler, request by request, and what it gets back. -/

import Webos.Adb.Config
import Webos.Lib.Format

namespace Webos.Services.Http

open Webos.Adb (ascii)
open Webos.Lib

def WEBOS_HTTP_BODY_MAX : Nat := 4096
def WEBOS_JSON_VALUE_MAX : Nat := 1536

inductive TransactionStatus where
  | aborted
  | complete
  | dataMore
  | dataFinal
  deriving DecidableEq

structure Header where
  name : Option (List UInt8)
  value : Option (List UInt8)

/-- What the services called in a callback answer: the result of a file write, and the result and
output of a shell command. -/
structure Answers where
  write : Int32
  shell : Int32
  output : List UInt8

structure RequestCtx where
  data : List UInt8
  headers : List Header
  answers : Answers

structure Callback where
  status : TransactionStatus
  request : RequestCtx

/-- The ways a request ends: its last data callback, followed by its completion or its abort, or
an abort before that. -/
inductive Ending where
  | aborted (request : RequestCtx)
  | final (last : RequestCtx) (completed : Bool) (request : RequestCtx)

structure Request where
  more : List RequestCtx
  ending : Ending

namespace Request

variable (r : Request)

def last : List RequestCtx :=
  match r.ending with
  | .aborted _ => []
  | .final last _ _ => [last]

def closing : List Callback :=
  match r.ending with
  | .aborted request => [⟨.aborted, request⟩]
  | .final _ completed request => [⟨if completed then .complete else .aborted, request⟩]

def callbacks : List Callback :=
  r.more.map (Callback.mk .dataMore) ++ r.last.map (Callback.mk .dataFinal) ++ r.closing

def chunks : List (List UInt8) := (r.more ++ r.last).map RequestCtx.data

def body : List UInt8 := r.chunks.flatten

end Request

inductive Status where
  | ok
  | badRequest
  | payloadTooLarge
  | internalServerError
  deriving DecidableEq

/-- `struct http_response_ctx`, where `body` is the whole block that is passed. -/
structure Response where
  status : Status
  contentType : List UInt8
  body : List UInt8
  bodyLen : Nat
  finalChunk : Bool

def setJsonResponse (status : Status) (body : List UInt8) (bodyLen : Nat) : Response :=
  ⟨status, ascii "application/json", body, bodyLen, true⟩

def literal (s : String) : List UInt8 := ascii s ++ [0]

section Serve

variable {S E : Type}

structure Outcome (S E : Type) where
  effects : List E
  response : Option Response
  state : S

def serve (handler : Callback → S → Outcome S E) : List Callback → S → List E × S
  | [], s => ([], s)
  | callback :: rest, s =>
    let out := handler callback s
    let (effects, s) := serve handler rest out.state
    (out.effects ++ effects, s)

variable (handler : Callback → S → Outcome S E)

@[simp] theorem serve_nil (s : S) : serve handler [] s = ([], s) := rfl

theorem serve_cons (callback : Callback) (rest : List Callback) (s : S) :
    serve handler (callback :: rest) s =
      ((handler callback s).effects ++ (serve handler rest (handler callback s).state).1,
        (serve handler rest (handler callback s).state).2) := rfl

theorem serve_append (first second : List Callback) (s : S) :
    serve handler (first ++ second) s =
      ((serve handler first s).1 ++ (serve handler second (serve handler first s).2).1,
        (serve handler second (serve handler first s).2).2) := by
  induction first generalizing s with
  | nil => rfl
  | cons callback first ih =>
    rw [List.cons_append, serve_cons, ih, serve_cons, List.append_assoc]

/-- The callbacks of requests one after the other. -/
def serveAll (requests : List Request) (s : S) : List E × S :=
  serve handler (requests.flatMap Request.callbacks) s

theorem serveAll_cons (r : Request) (requests : List Request) (s : S) :
    serveAll handler (r :: requests) s = ((serve handler r.callbacks s).1 ++
          (serveAll handler requests (serve handler r.callbacks s).2).1,
        (serveAll handler requests (serve handler r.callbacks s).2).2) := by
  unfold serveAll
  rw [List.flatMap_cons, serve_append]

end Serve

end Webos.Services.Http
