/-!
# Commands of the display controller
-/

namespace FrontPanel.Tft.Command

set_option autoImplicit false

def softwareReset : UInt8 := 0x01

def readIdentification : UInt8 := 0x04

def readStatus : UInt8 := 0x09

def readPowerMode : UInt8 := 0x0A

def readPixelFormat : UInt8 := 0x0C

def readImageMode : UInt8 := 0x0D

def sleepOut : UInt8 := 0x11

def normalMode : UInt8 := 0x13

def inversionOff : UInt8 := 0x20

def displayOn : UInt8 := 0x29

def columns : UInt8 := 0x2A

def rows : UInt8 := 0x2B

/-- Fills the window with the pixels that follow. -/
def memoryWrite : UInt8 := 0x2C

/-- Sets how memory is scanned. -/
def scanOrder : UInt8 := 0x36

def pixelFormat : UInt8 := 0x3A

/-- The four single identification registers. -/
def readIdentifiers : List UInt8 := [0xDA, 0xDB, 0xDC, 0xDD]

end FrontPanel.Tft.Command
