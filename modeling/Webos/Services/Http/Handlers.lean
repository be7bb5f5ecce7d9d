/- digest: The handlers that take a request body: file pushes, shell, firmware upload and log. -/

import Webos.Services.Http.Server
import Webos.Services.LogBuffer
import Webos.Services.Ota
import Webos.Utils.Json

namespace Webos.Services.Http

open Webos.Adb (ascii)
open Webos.Lib.Format
open Webos.Utils

inductive Effect where
  | writeFile (path data : List UInt8)
  | execute (cmd : List UInt8)
  | pushInput (input : List UInt8)
  | clearOutput
  deriving DecidableEq

inductive Collected where
  | ended
  | tooLarge
  | more
  | whole (body : List UInt8)

def accumulate (body : List UInt8) (callback : Callback) : Collected × List UInt8 :=
  if callback.status = .aborted ∨ callback.status = .complete then (.ended, [])
  else if body.length + callback.request.data.length ≥ WEBOS_HTTP_BODY_MAX then (.tooLarge, [])
  else if callback.status ≠ .dataFinal then (.more, body ++ callback.request.data)
  else (.whole (body ++ callback.request.data), [])

def requestTooLarge : Response :=
  setJsonResponse .payloadTooLarge (literal "\x7b\"error\":\"request too large\"\x7d\n")
    (ascii "\x7b\"error\":\"request too large\"\x7d\n").length

section Format

variable {n : Nat}

/-- `snprintk` into a handler's buffer, which is then passed with the length that it returned. -/
def respond (response : Buffer n) (status : Status) (content : List UInt8) :
    Response × Buffer n :=
  let (len, response) := response.snprintk content
  (setJsonResponse status response.bytes len, response)

def okPath (path : List UInt8) : List UInt8 :=
  ascii "\x7b\"ok\":true,\"path\":\"" ++ path ++ ascii "\"\x7d\n"

def errorCode (ret : Int) : List UInt8 := ascii "\x7b\"error\":" ++ decimal ret ++ ascii "\x7d\n"

def shellResult (ret : Int) (output : List UInt8) (attached : Bool) : List UInt8 :=
  ascii "\x7b\"rc\":" ++ decimal ret ++ ascii ",\"output\":\"" ++ output ++
    ascii "\",\"attached\":" ++ ascii (if attached then "true" else "false") ++ ascii "\x7d\n"

def otaDone (written : Nat) : List UInt8 :=
  ascii "\x7b\"ok\":true,\"bytes\":" ++ decimal written ++ ascii ",\"reboot_ms\":" ++
    decimal WEBOS_OTA_REBOOT_DELAY_MS ++ ascii "\x7d\n"

def logMessages (messages : List UInt8) : List UInt8 :=
  ascii "\x7b\"messages\":\"" ++ messages ++ ascii "\"\x7d\n"

end Format

section Push

instance responseSize : NeZero 96 := ⟨by decide⟩

structure Push where
  body : List UInt8
  response : Buffer 96

def pushTarget (body : List UInt8) : Except Int (List UInt8 × List UInt8) := do
  let path ← jsonGetString (text body) (ascii "path") 128
  let file ← jsonGetString (text body) (ascii "file") WEBOS_JSON_VALUE_MAX
  return (path, file)

def pushHandler (callback : Callback) (s : Push) : Outcome Push Effect :=
  match accumulate s.body callback with
  | (.ended, body) => ⟨[], none, { s with body := body }⟩
  | (.tooLarge, body) => ⟨[], some requestTooLarge, { s with body := body }⟩
  | (.more, body) => ⟨[], none, { s with body := body }⟩
  | (.whole json, body) =>
    match pushTarget json with
    | .error ret =>
      let (response, buffer) := respond s.response .badRequest (errorCode ret)
      ⟨[], some response, ⟨body, buffer⟩⟩
    | .ok (path, file) =>
      let (response, buffer) :=
        if callback.request.answers.write = 0 then respond s.response .ok (okPath path)
        else respond s.response .badRequest (errorCode callback.request.answers.write.toInt)
      ⟨[.writeFile path file], some response, ⟨body, buffer⟩⟩

end Push

section Pushbin

/-- `path` holds the bytes copied there; a handler reads it as a string. -/
structure Pushbin where
  path : List UInt8
  body : List UInt8
  response : Buffer 96

def headerPath (headers : List Header) : List UInt8 :=
  match headers.find? fun h => h.name.map text = some (ascii "X-Webos-Path") ∧ h.value ≠ none with
  | some ⟨_, some value⟩ => (text value).take 127
  | _ => []

def newline : UInt8 := 10

inductive LineError where
  | noPath
  | badPath

def firstLine (body : List UInt8) : Except LineError (List UInt8 × List UInt8) :=
  let line := body.takeWhile (· ≠ newline)
  if newline ∉ body then .error .noPath
  else if line.length ≥ 128 then .error .badPath
  else .ok (text line, body.drop (line.length + 1))

def pushbinTarget (path body : List UInt8) : Except LineError (List UInt8 × List UInt8) :=
  if text path = [] then firstLine body else .ok (text path, body)

/-- The responses of `pushbin_handler` that are literals, with the lengths it passes. -/
def pushbinTooLarge : Response :=
  setJsonResponse .payloadTooLarge (literal "\x7b\"error\":\"too large\"\x7d\n") 20

def LineError.response : LineError → Response
  | .noPath => setJsonResponse .badRequest (literal "\x7b\"error\":\"no path\"\x7d\n") 19
  | .badPath => setJsonResponse .badRequest (literal "\x7b\"error\":\"bad path\"\x7d\n") 19

def pushbinWriteFailed : Response :=
  setJsonResponse .internalServerError (literal "\x7b\"error\":\"write failed\"\x7d\n") 23

def capturePath (path : List UInt8) (request : RequestCtx) : List UInt8 :=
  if text path = [] then headerPath request.headers else path

def pushbinHandler (callback : Callback) (s : Pushbin) : Outcome Pushbin Effect :=
  let path := capturePath s.path callback.request
  match accumulate s.body callback with
  | (.ended, body) => ⟨[], none, { s with path := [], body := body }⟩
  | (.tooLarge, body) => ⟨[], some pushbinTooLarge, { s with path := [], body := body }⟩
  | (.more, body) => ⟨[], none, { s with path := path, body := body }⟩
  | (.whole all, body) =>
    match pushbinTarget path all with
    | .error e => ⟨[], some e.response, { s with path := path, body := body }⟩
    | .ok (path, data) =>
      let (response, buffer) :=
        if callback.request.answers.write = 0 then respond s.response .ok (okPath path)
        else (pushbinWriteFailed, s.response)
      ⟨[.writeFile path data], some response, ⟨[], body, buffer⟩⟩

end Pushbin

section Shell

def CONFIG_SHELL_BACKEND_DUMMY_BUF_SIZE : Nat := 1024

structure Shell where
  body : List UInt8
  response : Buffer (CONFIG_SHELL_BACKEND_DUMMY_BUF_SIZE * 2 + 96)
  escaped : Buffer (CONFIG_SHELL_BACKEND_DUMMY_BUF_SIZE * 2)

def shellTarget (body : List UInt8) : Except Int Effect :=
  if jsonHasKey (text body) (ascii "cmd") then
    (jsonGetString (text body) (ascii "cmd") 256).map .execute
  else if jsonHasKey (text body) (ascii "input") then
    (jsonGetString (text body) (ascii "input") 256).map .pushInput
  else .ok .clearOutput

def shellAnswer (answers : Answers) : Except Int Effect → Int × List UInt8
  | .error ret => (ret, [])
  | .ok .clearOutput => (0, [])
  | .ok _ => (answers.shell.toInt, answers.output)

def shellHandler (callback : Callback) (s : Shell) : Outcome Shell Effect :=
  match accumulate s.body callback with
  | (.ended, body) => ⟨[], none, { s with body := body }⟩
  | (.tooLarge, body) => ⟨[], some requestTooLarge, { s with body := body }⟩
  | (.more, body) => ⟨[], none, { s with body := body }⟩
  | (.whole json, body) =>
    let target := shellTarget json
    let (ret, output) := shellAnswer callback.request.answers target
    let (_, escaped) := s.escaped.appendJsonString output
    let (response, buffer) := respond s.response .ok
      (shellResult ret escaped.text (!jsonHasKey (text json) (ascii "cmd")))
    ⟨target.toOption.toList, some response, ⟨body, buffer, escaped⟩⟩

end Shell

section Ota

structure OtaStatics (σ : Type) where
  ota : Ota σ
  response : Buffer 96

variable {σ : Type}

/-- `ota_handler` after `ota_begin` and `ota_write` have returned `ret`. -/
def otaConclude (dev : FlashImg σ) (callback : Callback) (ret : Int) (s : OtaStatics σ) :
    Outcome (OtaStatics σ) Effect :=
  if ret = 0 ∧ callback.status = .dataFinal then
    let (ret, written, ota) := s.ota.otaFinish dev
    let (response, buffer) :=
      if ret = 0 then respond s.response .ok (otaDone written)
      else respond s.response .internalServerError (errorCode ret)
    ⟨[], some response, ⟨ota, buffer⟩⟩
  else if ret ≠ 0 then
    let (response, buffer) := respond s.response .internalServerError (errorCode ret)
    ⟨[], some response, ⟨s.ota.otaAbort, buffer⟩⟩
  else ⟨[], none, s⟩

def otaHandler (dev : FlashImg σ) (callback : Callback) (s : OtaStatics σ) :
    Outcome (OtaStatics σ) Effect :=
  if callback.status = .aborted then ⟨[], none, { s with ota := s.ota.otaAbort }⟩
  else if callback.status = .complete then ⟨[], none, s⟩
  else
    let (ret, ota) := s.ota.otaBegin dev
    if ret ≠ 0 then
      let (response, buffer) := respond s.response .internalServerError (errorCode ret)
      ⟨[], some response, ⟨ota, buffer⟩⟩
    else if callback.request.data.length > 0 then
      let (ret, ota) := ota.otaWrite dev callback.request.data (callback.status == .dataFinal)
      otaConclude dev callback ret { s with ota := ota }
    else otaConclude dev callback 0 { s with ota := ota }

end Ota

section Log

structure Log where
  body : List UInt8
  response : Buffer WEBOS_HTTP_BODY_MAX
  escaped : Buffer (WEBOS_HTTP_BODY_MAX * 2)
  log : LogBuffer

def logHandler (callback : Callback) (s : Log) : Outcome Log Effect :=
  match accumulate s.body callback with
  | (.ended, body) => ⟨[], none, { s with body := body }⟩
  | (.tooLarge, body) => ⟨[], some requestTooLarge, { s with body := body }⟩
  | (.more, body) => ⟨[], none, { s with body := body }⟩
  | (.whole json, body) =>
    let messages := logBufferRead WEBOS_HTTP_BODY_MAX s.log
    let log := if jsonHasKey (text json) (ascii "clear") then logBufferClear s.log else s.log
    let (_, escaped) := s.escaped.appendJsonString messages
    let (response, buffer) := respond s.response .ok (logMessages escaped.text)
    ⟨[], some response, ⟨body, buffer, escaped, log⟩⟩

end Log

end Webos.Services.Http
