import ModuleStubs.Decimal.Layout

/-! What is settled about the external tool: which program it is, what it is told
about the platform, and how long it may take. -/

namespace ModuleStubs

structure ToolSettings where
  executable : String := "sourcekitten"
  target : String := "arm64-apple-ios16.4.0"
  sdk : String :=
    "/Applications/Xcode.app/Contents/Developer/Platforms/iPhoneOS.platform" ++
      "/Developer/SDKs/iPhoneOS16.4.sdk"
  compilerArgs : List String := []
  timeout : Option Float := none
  /-- Whether a successful lookup is kept for the next one at the same place. -/
  cacheLookups : Bool := false

def ToolSettings.timeoutText (s : ToolSettings) : String :=
  match s.timeout with
  | some seconds => Decimal.floatText Decimal.plain seconds
  | none => "None"

end ModuleStubs
