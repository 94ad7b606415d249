import M5DayLog.Lib.Bytes

/-! The recorder's fixed contract: audio format, paths on the card, and metadata bounds. -/

namespace M5DayLog

open Bytes

def sampleRateHz : ℕ := 16000
def channelCount : ℕ := 1
def bitsPerSample : ℕ := 16
def bytesPerSample : ℕ := 2
def byteRate : ℕ := sampleRateHz * channelCount * bytesPerSample
def blockAlign : ℕ := channelCount * bytesPerSample

def bufferBytes : ℕ := 32768
def bufferSlots : ℕ := 2

def wavHeaderSize : ℕ := 44
def partSuffix : Bytes := lit ".wav.part"
def wavSuffix : Bytes := lit ".wav"
def maxPathLen : ℕ := 256

def m5daylogDir : Bytes := lit "/sdcard/M5DAYLOG"
def recordingsDir : Bytes := lit "/sdcard/M5DAYLOG/recordings"
def quarantineDir : Bytes := lit "/sdcard/M5DAYLOG/quarantine"
def eventsPath : Bytes := lit "/sdcard/M5DAYLOG/events.jsonl"
def manifestPath : Bytes := lit "/sdcard/M5DAYLOG/manifest.json"
def manifestTmpPath : Bytes := lit "/sdcard/M5DAYLOG/manifest.tmp"

def metadataSchemaVersion : ℕ := 1
def firmwareVersion : Bytes := lit "0.1.0"
def manifestEntryMax : ℕ := 1024
def manifestMaxBytes : ℕ := 131072
def manifestAdmissionCeilingBytes : ℕ := 32768

theorem recordingsDir_ne : recordingsDir ≠ [] := by with_unfolding_all decide

end M5DayLog
